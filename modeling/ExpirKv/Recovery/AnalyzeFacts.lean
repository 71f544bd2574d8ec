import ExpirKv.Recovery.Acceptance
import ExpirKv.Recovery.DescriptorsExact

namespace ExpirKv
open VLogGeometry Storage

variable [Crc32c]

-- What every analysis finds before it looks for a target.
structure Situation (format : FormatMetadata) (inventory : ManagedInventory) (storage : Storage) (identity : Bytes)
    (frontier : DurableFrontier) (headSeq : Nat) (topology : RecoveryTopology)
    (descriptors : List TransactionDescriptor) : Prop where
  honest : storage.Honest
  identified : storage.index.system[databaseIdentityKey]? = some identity
  valid : validateDatabaseIdentity format identity = .ok ()
  geometry : storage.vlog.geometry = production
  durable : ∃ encoded, storage.index.system[durableFrontierKey]? = some encoded ∧
    DurableFrontier.decode encoded = .ok frontier
  head : ∃ encoded, storage.index.system[headSeqKey]? = some encoded ∧ decodeHeadSeq encoded = .ok headSeq
  below : frontier.validateAgainstHead headSeq = .ok ()
  topology : RecoveryTopology.analyze inventory frontier.durableVlogEnd = .ok topology
  boundary : StableBoundary storage.vlog frontier
  loaded : loadUnstableDescriptors frontier.durableSeq headSeq storage = .ok descriptors storage

section analysis
variable {format : FormatMetadata} {inventory : ManagedInventory} {storage : Storage} {identity : Bytes}
  {frontier : DurableFrontier} {headSeq : Nat} {topology : RecoveryTopology} {descriptors : List TransactionDescriptor}

def analyzeTarget (identity : Bytes) (frontier : DurableFrontier) (headSeq : Nat)
    (descriptors : List TransactionDescriptor) (inventory : ManagedInventory) (topology : RecoveryTopology) :
    Option RecoveryState → Eff Storage StorageError RecoveryPlan
  | some state => analyzeFixedTarget identity frontier headSeq descriptors state inventory topology
  | none => analyzeNewTarget identity frontier headSeq descriptors inventory topology

theorem loadUnstableDescriptors_reads (honest : storage.Honest) (durableSeq headSeq : Nat) :
    Delivers (loadUnstableDescriptors durableSeq headSeq) storage
      (fun descriptors reached => reached = storage ∧
        loadUnstableDescriptors durableSeq headSeq storage = .ok descriptors storage)
      (fun _ _ => True) := by
  have calm : Delivers (loadUnstableDescriptors durableSeq headSeq) storage (fun _ reached => reached = storage)
      (fun _ _ => True) := by
    rw [loadUnstableDescriptors,delivers_bind,delivers_lift]
    refine ⟨?_,fun _ _ => trivial⟩
    intro range _
    cases range with
    | none => exact rfl
    | some range =>
      simp only [delivers_bind,delivers_mapError,scanInternal]
      rw [delivers_reading_honest honest]
      exact delivers_lift.mpr ⟨fun _ _ => rfl,fun _ _ => trivial⟩
  unfold Delivers at calm ⊢
  cases ran : loadUnstableDescriptors durableSeq headSeq storage with
  | ok descriptors reached =>
    simp only [ran] at calm
    subst calm
    exact ⟨rfl,rfl⟩
  | error error reached => trivial

omit [Crc32c] in
theorem requiredInternal_honest {key : Bytes} {post : Bytes → Storage → Prop} {fail : StorageError → Storage → Prop}
    (honest : storage.Honest) :
    Delivers (requiredInternal key) storage post fail ↔
      (∀ value, storage.index.system[key]? = some value → post value storage) ∧
        (storage.index.system[key]? = none → fail recoveryCorruption storage) := by
  rw [requiredInternal,delivers_bind,delivers_mapError,getInternal,delivers_reading_honest honest,delivers_lift]
  simp only [Index.keyspace,orError_ok]
  refine and_congr Iff.rfl ?_
  cases found : storage.index.system[key]? with
  | none => simp [orError]
  | some value => simp [orError]

omit [Crc32c] in
theorem readIdentity_honest {post : Bytes → Storage → Prop} {fail : StorageError → Storage → Prop}
    (honest : storage.Honest) :
    Delivers readIdentity storage post fail ↔
      (∀ value, storage.index.system[databaseIdentityKey]? = some value → post value storage) ∧
        (storage.index.system[databaseIdentityKey]? = none → fail recoveryCorruption storage) :=
  requiredInternal_honest honest

-- A successful analysis, taken apart.
theorem analyzeRecovery_situation {plan : RecoveryPlan} {reached : Storage} (honest : storage.Honest)
    (analyzed : analyzeRecovery format inventory storage = .ok plan reached) :
    ∃ identity frontier headSeq topology descriptors recoveryState,
      Situation format inventory storage identity frontier headSeq topology descriptors ∧
      decodeRecoveryState storage.index.system[recoveryStateKey]? = .ok recoveryState ∧
      analyzeTarget identity frontier headSeq descriptors inventory topology recoveryState storage = .ok plan reached := by
  have run : Delivers (analyzeRecovery format inventory) storage
      (fun plan reached => ∃ identity frontier headSeq topology descriptors recoveryState,
        Situation format inventory storage identity frontier headSeq topology descriptors ∧
        decodeRecoveryState storage.index.system[recoveryStateKey]? = .ok recoveryState ∧
        analyzeTarget identity frontier headSeq descriptors inventory topology recoveryState storage = .ok plan reached)
      (fun _ _ => True) := by
    simp only [analyzeRecovery,checkGeometry,getInternal,delivers_bind,delivers_mapError,delivers_lift,delivers_get,
      requiredInternal_honest honest,readIdentity_honest honest,delivers_reading_honest honest,mapError_ok,rejectIf_ok,
      not_not,ne_eq,implies_true,and_true]
    intro identity identified _ valid _ geometry encodedFrontier storedFrontier frontier decodedFrontier encodedHead
      storedHead headSeq decodedHead _ below recoveryState decodedState topology topological
    refine validateStableBoundary_honest honest ?_ (fun _ _ => trivial)
    intro boundary
    refine (loadUnstableDescriptors_reads honest frontier.durableSeq headSeq).mono ?_ (fun _ _ _ => trivial)
    rintro descriptors reached ⟨same,loaded⟩
    obtain rfl := same.symm
    have situation : Situation format inventory storage identity frontier headSeq topology descriptors :=
      ⟨honest,identified,valid,geometry,⟨encodedFrontier,storedFrontier,decodedFrontier⟩,
        ⟨encodedHead,storedHead,decodedHead⟩,below,topological,boundary,loaded⟩
    have rest : ∀ target : Eff Storage StorageError RecoveryPlan,
        analyzeTarget identity frontier headSeq descriptors inventory topology recoveryState = target →
        Delivers target storage (fun plan reached => ∃ identity frontier headSeq topology descriptors recoveryState,
          Situation format inventory storage identity frontier headSeq topology descriptors ∧
          decodeRecoveryState storage.index.system[recoveryStateKey]? = .ok recoveryState ∧
          analyzeTarget identity frontier headSeq descriptors inventory topology recoveryState storage =
            .ok plan reached) (fun _ _ => True) := by
      rintro _ rfl
      refine (Delivers.self _ storage).mono ?_ (fun _ _ _ => trivial)
      intro plan reached ran
      exact ⟨identity,frontier,headSeq,topology,descriptors,recoveryState,situation,decodedState,ran⟩
    cases recoveryState with
    | none => exact rest _ rfl
    | some state => exact rest _ rfl
  exact run.of_ok analyzed

theorem Situation.analyze {recoveryState : Option RecoveryState}
    (situation : Situation format inventory storage identity frontier headSeq topology descriptors)
    (decoded : decodeRecoveryState storage.index.system[recoveryStateKey]? = .ok recoveryState)
    {post : RecoveryPlan → Storage → Prop} {fail : StorageError → Storage → Prop}
    (rest : Delivers (analyzeTarget identity frontier headSeq descriptors inventory topology recoveryState) storage
      post fail) : Delivers (analyzeRecovery format inventory) storage post fail := by
  obtain ⟨honest,identified,valid,geometry,⟨encodedFrontier,storedFrontier,decodedFrontier⟩,
    ⟨encodedHead,storedHead,decodedHead⟩,below,topological,boundary,loaded⟩ := situation
  simp only [analyzeRecovery,checkGeometry,getInternal,delivers_bind,delivers_mapError,delivers_lift,delivers_get,
      requiredInternal_honest honest,readIdentity_honest honest,delivers_reading_honest honest,identified,valid,geometry,
      storedFrontier,decodedFrontier,storedHead,decodedHead,below,decoded,topological,Index.keyspace,Except.mapError,
      Option.some.injEq,Except.ok.injEq,forall_eq',reduceCtorEq,false_implies,implies_true,and_true]
  have fine : rejectIf (production ≠ production) recoveryCorruption = .ok () := rejectIf_false (by simp)
  simp only [fine,reduceCtorEq,false_implies,implies_true,and_true,forall_const]
  refine validateStableBoundary_honest honest (fun _ => ?_) (fun _ unstable => absurd boundary unstable)
  have reading : Delivers (loadUnstableDescriptors frontier.durableSeq headSeq) storage
      (fun found reached => found = descriptors ∧ reached = storage) (fun _ _ => False) := by
    rw [Delivers,loaded]
    exact ⟨rfl,rfl⟩
  refine reading.mono ?_ (fun _ _ no => no.elim)
  rintro _ _ ⟨rfl,rfl⟩
  cases recoveryState with
  | none => exact rest
  | some state => exact rest

-- The descriptors above the durable sequence, all of them and each as it was stored.
structure DescribedAbove (space : Keyspace) (durableSeq headSeq : Nat) (descriptors : List TransactionDescriptor) :
    Prop where
  length : descriptors.length = headSeq - durableSeq
  numbered : ∀ index (bound : index < descriptors.length),
    (descriptors[index]).txMeta.commitSeq = durableSeq + 1 + index
  intact : durableSeq + 1 < 18446744073709551616 → IntactSuffix space durableSeq headSeq descriptors
  each : ∀ descriptor ∈ descriptors, descriptor.Fits ∧ descriptor.Sealed

theorem loadUnstableDescriptors_iff (honest : storage.Honest) {durableSeq headSeq : Nat}
    (ordered : durableSeq ≤ headSeq) (fits : headSeq < 18446744073709551616) :
    loadUnstableDescriptors durableSeq headSeq storage = .ok descriptors storage ↔
      DescribedAbove storage.index.transaction durableSeq headSeq descriptors := by
  by_cases room : durableSeq + 1 < 18446744073709551616
  · rw [loadUnstableDescriptors_eq ordered room honest]
    have answers : ∀ answer : Result (List TransactionDescriptor),
        Eff.lift answer storage = .ok descriptors storage ↔ answer = .ok descriptors := by
      intro answer
      cases answer <;> simp [Eff.lift]
    rw [answers]
    constructor
    · intro read
      obtain ⟨intact,each⟩ := groupDescriptors_intact room read
      exact ⟨intact.length,intact.numbered,fun _ => intact,each⟩
    · intro described
      obtain ⟨chain,stored,rfl,scanned⟩ := (described.intact room).scan described.each room
      have count := described.length
      rw [List.length_map] at count
      have total : headSeq = durableSeq + chain.length := by omega
      rw [scanned,total]
      exact stored.grouped
  · have range : unstableDescriptorRange durableSeq headSeq = .ok none := by
      rw [unstableDescriptorRange,rejectIf_false (by omega),ok_bind,if_pos (by omega),pure_ok]
    have loads : loadUnstableDescriptors durableSeq headSeq storage = .ok [] storage := by
      rw [loadUnstableDescriptors,range]
      rfl
    rw [loads]
    constructor
    · intro same
      cases same
      exact ⟨by simp only [List.length_nil]; omega,fun index bound => absurd bound (Nat.not_lt_zero _),
        fun inside => absurd inside room,fun _ member => by cases member⟩
    · intro described
      have count := described.length
      obtain rfl : descriptors = [] := List.length_eq_zero_iff.mp (by omega)
      rfl

omit [Crc32c] in
theorem decodeHeadSeq_lt {encoded : Bytes} {headSeq : Nat} (decoded : decodeHeadSeq encoded = .ok headSeq) :
    headSeq < 18446744073709551616 := by
  simp only [decodeHeadSeq,orCorrupt,readU64,bind_ok,exists_unit,mapError_ok] at decoded
  exact readUint_lt decoded.2

theorem Situation.bounds (situation : Situation format inventory storage identity frontier headSeq topology descriptors) :
    frontier.durableSeq ≤ headSeq ∧ headSeq < 18446744073709551616 ∧
      frontier.durableVlogSeq ≤ frontier.durableSeq ∧
      vlogEndMatches frontier.durableVlogSeq frontier.durableVlogEnd = true := by
  have below := situation.below
  simp only [DurableFrontier.validateAgainstHead,bind_ok,exists_unit,rejectIf_ok] at below
  obtain ⟨ordered,matched⟩ := DurableFrontier.validate_ok.mp below.1
  obtain ⟨encoded,-,decoded⟩ := situation.head
  exact ⟨by omega,decodeHeadSeq_lt decoded,ordered,matched⟩

theorem Situation.described
    (situation : Situation format inventory storage identity frontier headSeq topology descriptors) :
    DescribedAbove storage.index.transaction frontier.durableSeq headSeq descriptors :=
  (loadUnstableDescriptors_iff situation.honest situation.bounds.1 situation.bounds.2.1).mp situation.loaded

theorem Situation.start (situation : Situation format inventory storage identity frontier headSeq topology descriptors)
    (lists : inventory.Lists storage.vlog.files) : Extends storage.vlog frontier (.start frontier) :=
  .start situation.bounds.2.2.1 situation.bounds.2.2.2 (((RecoveryTopology.analyze_ok lists).mp situation.topology).1)
    situation.boundary

-- The accepted prefix, and the plan that is built on it.
theorem Situation.extended
    (situation : Situation format inventory storage identity frontier headSeq topology descriptors)
    (lists : inventory.Lists storage.vlog.files) {front back : List TransactionDescriptor}
    (split : descriptors = front ++ back) (accepts : AcceptsAll storage.vlog (.start frontier) front) :
    Extends storage.vlog frontier (front.foldl Accepted.take (.start frontier)) ∧
      (front.foldl Accepted.take (.start frontier)).seq = frontier.durableSeq + front.length := by
  have described := situation.described
  refine (situation.start lists).takeAll situation.geometry lists accepts ?_
  intro index bound
  have numbered := described.numbered index (by rw [split,List.length_append]; omega)
  simp only [split,List.getElem_append_left bound] at numbered
  exact numbered

theorem buildPlan_ok {accepted : Accepted} {recoveryState : Option RecoveryState}
    (ext : Extends storage.vlog frontier accepted) (lists : inventory.Lists storage.vlog.files)
    (vlogOrdered : frontier.durableVlogSeq ≤ frontier.durableSeq) (inside : accepted.seq ≤ headSeq)
    (resumes : ∀ state ∈ recoveryState,
      state.targetVlogSeq = accepted.vlogSeq ∧ state.targetVlogEnd = accepted.vlogEnd) :
    buildPlan identity frontier headSeq accepted descriptors recoveryState inventory topology =
      .ok (plannedRecovery identity frontier headSeq accepted descriptors recoveryState inventory topology) := by
  have vlogSeq : frontier.durableVlogSeq ≤ accepted.vlogSeq := by
    rcases ext.moved with ⟨same,-⟩ | ⟨later,-⟩ <;> omega
  have contains : RecoveryTopology.containsEnd inventory accepted.vlogEnd = true := by
    rw [RecoveryTopology.containsEnd_iff lists]
    intro position same
    have reached := ext.reached
    rw [same] at reached
    exact reached.2.2.2
  have kept : (recoveryState.any (fun state =>
      state.targetVlogSeq != accepted.vlogSeq || state.targetVlogEnd != accepted.vlogEnd)) = false := by
    cases recoveryState with
    | none => rfl
    | some state => simp [resumes state rfl]
  have ordered := ext.ordered
  rw [buildPlan,rejectIf_false (by omega),ok_bind,rejectIf_false (by simp [kept,contains]),ok_bind,pure_ok]

-- The first analysis answers on every image of this kind.
theorem Situation.fresh (situation : Situation format inventory storage identity frontier headSeq topology descriptors)
    (lists : inventory.Lists storage.vlog.files) :
    ∃ front back, descriptors = front ++ back ∧ AcceptsAll storage.vlog (.start frontier) front ∧
      (∀ first ∈ back.head?, ¬Acceptable storage.vlog (front.foldl Accepted.take (.start frontier)) first) ∧
      analyzeNewTarget identity frontier headSeq descriptors inventory topology storage =
        .ok (plannedRecovery identity frontier headSeq (front.foldl Accepted.take (.start frontier)) descriptors none inventory
          topology) storage := by
  have run : Delivers (analyzeNewTarget identity frontier headSeq descriptors inventory topology) storage
      (fun plan reached => reached = storage ∧ ∃ front back, descriptors = front ++ back ∧
        AcceptsAll storage.vlog (.start frontier) front ∧
        (∀ first ∈ back.head?, ¬Acceptable storage.vlog (front.foldl Accepted.take (.start frontier)) first) ∧
        plan = plannedRecovery identity frontier headSeq (front.foldl Accepted.take (.start frontier)) descriptors none inventory
          topology) (fun _ _ => False) := by
    refine (acceptLongest_honest situation.honest descriptors).bind ?_ (fun _ _ stopped => stopped)
    rintro accepted reached ⟨same,front,back,split,accepts,rfl,stops⟩
    obtain rfl := same.symm
    obtain ⟨ext,seq⟩ := situation.extended lists split accepts
    have count := situation.described.length
    rw [split,List.length_append] at count
    have bounds := situation.bounds
    have built := @buildPlan_ok _ inventory storage identity frontier headSeq topology descriptors _ none ext lists
      bounds.2.2.1 (by omega) (fun _ no => by cases no)
    rw [built]
    exact ⟨rfl,front,back,split,accepts,stops,rfl⟩
  obtain ⟨plan,reached,ran,same,front,back,split,accepts,stops,rfl⟩ := run.returns
  rw [same] at ran
  exact ⟨front,back,split,accepts,stops,ran⟩

end analysis

end ExpirKv
