import ExpirKv.Commit.LiveRuns
import ExpirKv.Commit.Packed
import ExpirKv.Lifecycle.CleanOpen

namespace ExpirKv
open VLogGeometry Storage CommitCoordinator

section created
variable [Crc32c] {uuid : Uuid}

-- What `initialize_database` leaves, seen from the next open.
def createdDatabase (uuid : Uuid) : Storage := ⟨Index.empty.apply (firstBatch uuid),.empty uuid,[],[]⟩

theorem createdDatabase_rested (present : uuid.isZero = false) :
    Rested ⟨0,uuid,65536⟩ 0 ⟨0,0,none⟩ (createdDatabase uuid).index := by
  have apart : databaseIdentityKey ≠ durableFrontierKey ∧ databaseIdentityKey ≠ headSeqKey ∧
      headSeqKey ≠ durableFrontierKey := by decide
  have other : recoveryStateKey ≠ durableFrontierKey ∧ recoveryStateKey ≠ headSeqKey ∧
      recoveryStateKey ≠ databaseIdentityKey := by decide
  refine ⟨⟨encodedIdentityOf uuid,?_,?_⟩,⟨?_,encodedFrontierOf,?_,?_⟩,by decide,rfl,rfl,?_,?_⟩
  · exact (firstIndex_system uuid _).trans (by rw [if_neg apart.1,if_neg apart.2.1,if_pos rfl])
  · rw [validateDatabaseIdentity,decode_encodedIdentity present]
    simp [Except.mapError,DatabaseIdentity.validateAgainst,rejectIf]
  · exact (firstIndex_system uuid _).trans (by rw [if_neg apart.2.2,if_pos rfl]; rfl)
  · simp only [DurableFrontier.encode,DurableFrontier.validate,encodedFrontierOf]
    rfl
  · exact (firstIndex_system uuid _).trans (if_pos rfl)
  · exact (firstIndex_system uuid _).trans (by rw [if_neg other.1,if_neg other.2.1,if_neg other.2.2])
  · intro _ key value found
    simp [createdDatabase,firstIndex_transaction] at found

theorem createdDatabase_atRest (present : uuid.isZero = false) :
    AtRest ⟨0,uuid,65536⟩ ⟨[]⟩ 0 ⟨0,0,none⟩ (createdDatabase uuid) := by
  refine ⟨rfl,createdDatabase_rested present,rfl,fun _ no => (by cases no),?_,?_⟩
  · intro fileId
    simp [createdDatabase,FileSet.empty,acceptedContents]
  · intro later relisted
    simp [StableBoundary]

theorem createdDatabase_serves (files : FileSet) :
    Serves files (createdDatabase uuid).index (fun _ => none) := by
  intro key
  simp only [createdDatabase,firstIndex_user]
  simp

end created

section served
variable [Crc32c] {format : FormatMetadata} {inventory : ManagedInventory} {start final : Storage}
  {opened c : CommitCoordinator} {base : UserMap} {past : List Attempt}

theorem openPrepared_grounded (ran : openPrepared format inventory start = .ok opened final) :
    Grounded opened ∧ opened.log.storage = final.reopened := by
  obtain ⟨recovered,founded,opens⟩ := openPrepared_founded.of_ok ran
  obtain ⟨stats,same⟩ := founded.opens
  refine ⟨founded.grounded opens,?_⟩
  obtain rfl := Except.ok.inj (opens.symm.trans same)
  rfl

-- At every moment of an instance its index stands for the map it was opened with and everything that was answered
-- since, in order; behind a failure that stopped it also for all of that one request. What an index stands for at one
-- moment it stands for ever after.
theorem instance_serves_writes (ran : openPrepared format inventory start = .ok opened final)
    (serves : Serves final.vlog final.index base) (run : LiveRun opened past c) :
    ∃ doubt, InDoubt past c doubt ∧ ∀ more later, LiveRun c more later →
      Serves later.log.storage.vlog c.log.storage.index (base.execute (answeredOperations past ++ doubt)) := by
  obtain ⟨grounded,storage⟩ := openPrepared_grounded ran
  obtain ⟨settled,doubt,inDoubt,served⟩ := run.serves grounded (by rw [storage]; exact serves)
  refine ⟨doubt,inDoubt,?_⟩
  intro more later further
  exact served.extends settled.layout (settled.run further.instanceRun).2

end served

def oneUuid : Uuid := ⟨List.replicate 16 1,rfl⟩

-- The instance that a new database is opened as, behind requests that it answers.
def firstInstance (requests : List WriteRequest) : Option CommitCoordinator :=
  match @openPrepared castagnoli (currentFormat oneUuid) ⟨[]⟩ (@createdDatabase castagnoli oneUuid) with
  | .ok opened _ => @answerAll castagnoli oneUuid requests opened
  | .error _ _ => none

theorem firstInstance_lives {requests : List WriteRequest} {next : CommitCoordinator}
    (there : firstInstance requests = some next) : ∃ opened final,
    @openPrepared castagnoli (currentFormat oneUuid) ⟨[]⟩ (@createdDatabase castagnoli oneUuid) = .ok opened final ∧
    @Serves castagnoli final.vlog final.index (fun _ => none) ∧
    @LiveRun castagnoli opened (requests.map (fun request => ⟨request.operations,true⟩)) next := by
  obtain ⟨opened,final,ran,index,-⟩ :=
    @AtRest.opens castagnoli _ _ _ _ _ (@createdDatabase_atRest castagnoli oneUuid rfl)
  refine ⟨opened,final,ran,?_,?_⟩
  · rw [index]
    exact @createdDatabase_serves castagnoli oneUuid final.vlog
  · have run := @LiveRun.answers castagnoli opened opened [] oneUuid requests next (@LiveRun.start castagnoli opened)
    unfold firstInstance at there
    rw [show @openPrepared castagnoli (currentFormat oneUuid) ⟨[]⟩ (@createdDatabase castagnoli oneUuid) = .ok opened final
      from ran] at there
    exact run there

-- A new database behind two puts, the second perhaps with a sync, and behind a third.
def threePuts (sync : Bool) : Option (CommitCoordinator × CommitCoordinator × CommitCoordinator) := do
  let begun ← firstInstance [.nonempty (onePut 1 2 false)]
  let moment ← @answerAll castagnoli oneUuid [.nonempty (onePut 3 4 sync)] begun
  let c ← @answerAll castagnoli oneUuid [.nonempty (onePut 5 6 false)] moment
  return (begun,moment,c)

structure Puts (sync : Bool) (begun moment c : CommitCoordinator) : Prop where
  answered : threePuts sync = some (begun,moment,c)
  first : firstInstance [.nonempty (onePut 1 2 false)] = some begun
  second : @commit castagnoli (.nonempty (onePut 3 4 sync)) (calmAround oneUuid) begun = .ok () moment
  third : @commit castagnoli (.nonempty (onePut 5 6 false)) (calmAround oneUuid) moment = .ok () c
  middle : moment.state = ⟨2,if sync then ⟨2,2,some ⟨0,542⟩⟩ else ⟨0,0,none⟩,2,some ⟨0,542⟩⟩
  last : c.state = ⟨3,if sync then ⟨2,2,some ⟨0,542⟩⟩ else ⟨0,0,none⟩,3,some ⟨0,781⟩⟩
  healthy : moment.runtime.state.instanceState = .healthy ∧ c.runtime.state.instanceState = .healthy
  files : c.log.storage.vlog.files.keys = [0] ∧ (c.log.storage.contents 0).length = 781
  covered : Event.covered c.log.storage.trace 0 = if sync then 542 else 0

theorem answerAll_single {request : WriteRequest} {c next : CommitCoordinator}
    (answered : @answerAll castagnoli oneUuid [request] c = some next) :
    @commit castagnoli request (calmAround oneUuid) c = .ok () next := by
  simp only [answerAll] at answered
  split at answered
  · rename_i here
    rw [here,Option.some.inj answered]
  · cases answered

theorem puts (sync : Bool) : ∃ begun moment c, Puts sync begun moment c := by
  have outcome : (threePuts sync).map (fun (_,moment,c) => ((moment.state,c.state),
      (moment.runtime.state.instanceState,c.runtime.state.instanceState),
      (c.log.storage.vlog.files.keys,(c.log.storage.contents 0).length),Event.covered c.log.storage.trace 0)) =
      some ((⟨2,if sync then ⟨2,2,some ⟨0,542⟩⟩ else ⟨0,0,none⟩,2,some ⟨0,542⟩⟩,
        ⟨3,if sync then ⟨2,2,some ⟨0,542⟩⟩ else ⟨0,0,none⟩,3,some ⟨0,781⟩⟩),(.healthy,.healthy),([0],781),
        if sync then 542 else 0) := by
    cases sync <;> decide +kernel
  obtain ⟨⟨begun,moment,c⟩,answered,there⟩ := Option.map_eq_some_iff.mp outcome
  simp only [Prod.mk.injEq] at there
  obtain ⟨⟨middle,last⟩,healthy,files,covered⟩ := there
  have steps := answered
  simp only [threePuts,Option.bind_eq_bind,Option.bind_eq_some_iff,Option.pure_def,Option.some.injEq,Prod.mk.injEq] at steps
  obtain ⟨_,first,_,second,_,third,rfl,rfl,rfl⟩ := steps
  exact ⟨_,_,_,answered,first,answerAll_single second,answerAll_single third,middle,last,healthy,files,covered⟩

-- What the puts ask, and the life they make.
def askedPuts : List Attempt := [⟨[.put [1] [2]],true⟩,⟨[.put [3] [4]],true⟩]
def laterPut : Attempt := ⟨[.put [5] [6]],true⟩

theorem Puts.lives {sync : Bool} {begun moment c : CommitCoordinator} (puts : Puts sync begun moment c) :
    ∃ opened final,
      @openPrepared castagnoli (currentFormat oneUuid) ⟨[]⟩ (@createdDatabase castagnoli oneUuid) = .ok opened final ∧
      @Serves castagnoli final.vlog final.index (fun _ => none) ∧ @LiveRun castagnoli opened askedPuts moment ∧
      @LiveRun castagnoli opened (askedPuts ++ [laterPut]) c ∧ @LiveRun castagnoli moment [laterPut] c := by
  obtain ⟨opened,final,ran,serves,run⟩ := firstInstance_lives puts.first
  have middle := @LiveRun.answered castagnoli _ _ _ _ _ _ run puts.second
  exact ⟨opened,final,ran,serves,middle,@LiveRun.answered castagnoli _ _ _ _ _ _ middle puts.third,
    @LiveRun.answered castagnoli _ _ _ _ _ _ (@LiveRun.start castagnoli moment) puts.third⟩

theorem instance_serves_writes_puts : ∃ begun moment c, Puts true begun moment c ∧
    ∃ doubt, InDoubt (askedPuts ++ [laterPut]) c doubt ∧ ∀ more later, @LiveRun castagnoli c more later →
      @Serves castagnoli later.log.storage.vlog c.log.storage.index
        (UserMap.execute (fun _ => none) (answeredOperations (askedPuts ++ [laterPut]) ++ doubt)) := by
  obtain ⟨begun,moment,c,answered⟩ := puts true
  obtain ⟨opened,final,ran,serves,-,run,-⟩ := answered.lives
  exact ⟨begun,moment,c,answered,@instance_serves_writes castagnoli _ _ _ _ _ _ _ _ ran serves run⟩

end ExpirKv
