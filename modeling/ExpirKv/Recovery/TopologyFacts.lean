import ExpirKv.Recovery.Topology

namespace ExpirKv
open VLogGeometry Storage

-- Every lower file is full, and the file of the position reaches it.
def Reached (files : Directory) (position : VLogPosition) : Prop :=
  (∀ fileId < position.fileId, ∃ contents, files[fileId]? = some contents ∧ contents.length = 4294967296) ∧
    ∃ contents, files[position.fileId]? = some contents ∧ position.offset ≤ contents.length

-- The inventory of a directory: every file with its length, in order.
structure ManagedInventory.Lists (inventory : ManagedInventory) (files : Directory) : Prop where
  listed : inventory.vlogFiles = files.toList.map (fun entry => ⟨entry.1,entry.2.length⟩)
  bounded : ∀ fileId (contents : Bytes), files[fileId]? = some contents →
    fileId ≤ 999999 ∧ contents.length ≤ 4294967296

section inspect
variable [Crc32c]

theorem inspectFile_ok {format : FormatMetadata} {entry : Nat × Bytes} {found : VLogInventoryEntry}
    (inspected : inspectFile format entry = .ok found) :
    found = ⟨entry.1,entry.2.length⟩ ∧ entry.1 ≤ 999999 ∧ entry.2.length ≤ 4294967296 ∧
      (64 ≤ entry.2.length → validateFileIdentity format entry.1 entry.2 = .ok ()) := by
  unfold inspectFile at inspected
  simp only [maxVlogFileId,maxVlogFileSize,bind_ok,exists_unit,rejectIf_ok] at inspected
  obtain ⟨named,sized,inspected⟩ := inspected
  split at inspected
  · simp only [bind_ok,exists_unit,pure_ok,Except.ok.injEq] at inspected
    obtain ⟨valid,rfl⟩ := inspected
    exact ⟨rfl,by omega,by omega,fun _ => valid⟩
  · rename_i short
    obtain rfl := Except.ok.inj inspected
    exact ⟨rfl,by omega,by omega,fun long => absurd long short⟩

theorem inspectFiles_lists {format : FormatMetadata} {files : Directory} {inventory : ManagedInventory}
    (inspected : inspectFiles format files = .ok inventory) : inventory.Lists files := by
  simp only [inspectFiles,bind_ok,pure_ok,Except.ok.injEq] at inspected
  obtain ⟨entries,mapped,rfl⟩ := inspected
  have each : ∀ list : List (Nat × Bytes), ∀ results, list.mapM (inspectFile format) = .ok results →
      results = list.map (fun entry => ⟨entry.1,entry.2.length⟩) ∧
      ∀ entry ∈ list, entry.1 ≤ 999999 ∧ entry.2.length ≤ 4294967296 := by
    intro list
    induction list with
    | nil =>
      intro results done
      exact ⟨mapM_ok_nil done,fun _ member => by cases member⟩
    | cons first rest ih =>
      intro results done
      obtain ⟨found,later,here,there,rfl⟩ := mapM_ok_cons done
      obtain ⟨rfl,named,sized,-⟩ := inspectFile_ok here
      obtain ⟨rfl,bounded⟩ := ih later there
      refine ⟨rfl,?_⟩
      intro entry member
      rcases List.mem_cons.mp member with rfl | member
      · exact ⟨named,sized⟩
      · exact bounded entry member
  obtain ⟨rfl,bounded⟩ := each _ _ mapped
  refine ⟨rfl,?_⟩
  intro fileId contents found
  exact bounded (fileId,contents) (Std.ExtTreeMap.mem_toList_iff_getElem?_eq_some.mpr found)

end inspect

section lists
variable {inventory : ManagedInventory} {files : Directory}

theorem ManagedInventory.Lists.mem (lists : inventory.Lists files) {entry : VLogInventoryEntry} :
    entry ∈ inventory.vlogFiles ↔ ∃ contents, files[entry.fileId]? = some contents ∧ contents.length = entry.len := by
  rw [lists.listed,List.mem_map]
  constructor
  · rintro ⟨⟨fileId,contents⟩,member,rfl⟩
    exact ⟨contents,Std.ExtTreeMap.mem_toList_iff_getElem?_eq_some.mp member,rfl⟩
  · rintro ⟨contents,found,sized⟩
    refine ⟨(entry.fileId,contents),Std.ExtTreeMap.mem_toList_iff_getElem?_eq_some.mpr found,?_⟩
    rw [sized]

theorem ManagedInventory.Lists.ordered (lists : inventory.Lists files) :
    inventory.vlogFiles.Pairwise (fun one two => one.fileId < two.fileId) := by
  rw [lists.listed,List.pairwise_map]
  have ordered := Std.ExtTreeMap.ordered_keys_toList (t := files)
  refine ordered.imp ?_
  intro one two before
  exact Nat.compare_eq_lt.mp before

theorem validateInventoryOrder_ok {entries : List VLogInventoryEntry} {previous : Option Nat}
    (bounded : ∀ entry ∈ entries, entry.fileId ≤ 999999 ∧ entry.len ≤ 4294967296)
    (ordered : entries.Pairwise (fun one two => one.fileId < two.fileId))
    (above : ∀ entry ∈ entries, ∀ fileId ∈ previous, fileId < entry.fileId) :
    ∃ last, entries.foldlM (validateInventoryEntry production) previous = .ok last := by
  induction entries generalizing previous with
  | nil => exact ⟨previous,rfl⟩
  | cons entry rest ih =>
    obtain ⟨later,ordered⟩ := List.pairwise_cons.mp ordered
    obtain ⟨named,sized⟩ := bounded entry List.mem_cons_self
    have lower : previous.any (fun fileId => fileId ≥ entry.fileId) = false := by
      cases previous with
      | none => rfl
      | some fileId =>
        have before := above entry List.mem_cons_self fileId rfl
        simp only [Option.any_some,decide_eq_false_iff_not]
        omega
    have turn : validateInventoryEntry production previous entry = .ok (some entry.fileId) := by
      rw [validateInventoryEntry,rejectIf_false,ok_bind,pure_ok]
      simp only [maxVlogFileId,maxVlogFileSize,lower,Bool.false_eq_true,or_false]
      omega
    obtain ⟨last,done⟩ := @ih (some entry.fileId) (fun other member => bounded other (List.mem_cons_of_mem _ member))
      ordered (fun other member fileId same => by cases same; exact later other member)
    exact ⟨last,by rw [List.foldlM_cons,turn,ok_bind,done]⟩

-- What the loop over the stable files has seen.
theorem validateStableFile_ok {stableEnd : VLogPosition} {expected : Nat} {entries : List VLogInventoryEntry}
    (accepted : validateStableFile production stableEnd expected entries = .ok ())
    (below : ∀ entry ∈ entries, entry.fileId ≤ stableEnd.fileId) :
    (∀ fileId, expected ≤ fileId → fileId < stableEnd.fileId → ⟨fileId,4294967296⟩ ∈ entries) ∧
      ∃ len, ⟨stableEnd.fileId,len⟩ ∈ entries ∧ stableEnd.offset ≤ len := by
  induction entries generalizing expected with
  | nil => cases accepted
  | cons entry rest ih =>
    simp only [validateStableFile,bind_ok,exists_unit,rejectIf_ok,not_not,ne_eq] at accepted
    obtain ⟨rfl,accepted⟩ := accepted
    split at accepted
    · simp only [bind_ok,exists_unit,rejectIf_ok,not_not,maxVlogFileSize] at accepted
      obtain ⟨full,accepted⟩ := accepted
      obtain ⟨lower,len,last,reaches⟩ := ih accepted (fun other member => below other (List.mem_cons_of_mem _ member))
      refine ⟨?_,len,List.mem_cons_of_mem _ last,reaches⟩
      intro fileId from_ before
      by_cases here : fileId = entry.fileId
      · rw [here,← full]
        exact List.mem_cons_self
      · exact List.mem_cons_of_mem _ (lower fileId (by omega) before)
    · rename_i last
      have bound := below entry List.mem_cons_self
      have here : entry.fileId = stableEnd.fileId := by omega
      rw [rejectIf_ok] at accepted
      refine ⟨fun fileId from_ before => by omega,entry.len,?_,by omega⟩
      rw [← here]
      exact List.mem_cons_self

theorem validateStableFile_reached {stableEnd : VLogPosition} {expected : Nat} {entries : List VLogInventoryEntry}
    (ordered : entries.Pairwise (fun one two => one.fileId < two.fileId)) (start : expected ≤ stableEnd.fileId)
    (above : ∀ entry ∈ entries, expected ≤ entry.fileId ∧ entry.fileId ≤ stableEnd.fileId)
    (lower : ∀ fileId, expected ≤ fileId → fileId ≤ stableEnd.fileId → ∃ entry ∈ entries, entry.fileId = fileId)
    (full : ∀ entry ∈ entries, entry.fileId < stableEnd.fileId → entry.len = 4294967296)
    (reaches : ∀ entry ∈ entries, entry.fileId = stableEnd.fileId → stableEnd.offset ≤ entry.len) :
    validateStableFile production stableEnd expected entries = .ok () := by
  induction entries generalizing expected with
  | nil =>
    obtain ⟨entry,member,-⟩ := lower expected (Nat.le_refl _) start
    cases member
  | cons entry rest ih =>
    obtain ⟨later,ordered⟩ := List.pairwise_cons.mp ordered
    have here : entry.fileId = expected := by
      obtain ⟨found,member,same⟩ := lower expected (Nat.le_refl _) start
      rcases List.mem_cons.mp member with rfl | member
      · exact same
      · have after := later found member
        have least := (above entry List.mem_cons_self).1
        omega
    rw [validateStableFile,rejectIf_false (by omega),ok_bind]
    split
    · rename_i before
      rw [rejectIf_false (not_not.mpr (full entry List.mem_cons_self before)),ok_bind]
      refine ih ordered (by omega) ?_ ?_ (fun other member => full other (List.mem_cons_of_mem _ member))
        (fun other member => reaches other (List.mem_cons_of_mem _ member))
      · intro other member
        have after := later other member
        exact ⟨by omega,(above other (List.mem_cons_of_mem _ member)).2⟩
      · intro fileId from_ until_
        obtain ⟨found,member,same⟩ := lower fileId (by omega) until_
        rcases List.mem_cons.mp member with rfl | member
        · omega
        · exact ⟨found,member,same⟩
    · have bound := reaches entry List.mem_cons_self (by
        have last := (above entry List.mem_cons_self).2
        omega)
      exact rejectIf_false (by omega)

theorem mem_takeWhile_le {entries : List VLogInventoryEntry} {stop : Nat}
    (ordered : entries.Pairwise (fun one two => one.fileId < two.fileId)) {entry : VLogInventoryEntry} :
    entry ∈ entries.takeWhile (fun entry => decide (entry.fileId ≤ stop)) ↔ entry ∈ entries ∧ entry.fileId ≤ stop := by
  induction entries with
  | nil => simp
  | cons first rest ih =>
    obtain ⟨later,ordered⟩ := List.pairwise_cons.mp ordered
    by_cases low : first.fileId ≤ stop
    · rw [List.takeWhile_cons_of_pos (by simpa using low),List.mem_cons,List.mem_cons,ih ordered]
      constructor
      · rintro (rfl | ⟨member,bound⟩)
        · exact ⟨.inl rfl,low⟩
        · exact ⟨.inr member,bound⟩
      · rintro ⟨rfl | member,bound⟩
        · exact .inl rfl
        · exact .inr ⟨member,bound⟩
    · rw [List.takeWhile_cons_of_neg (by simpa using low)]
      constructor
      · intro member
        cases member
      · rintro ⟨member,bound⟩
        rcases List.mem_cons.mp member with rfl | member
        · exact absurd bound low
        · have after := later entry member
          omega

theorem validateStableFiles_reached (lists : inventory.Lists files) {position : VLogPosition} :
    validateStableFiles inventory (some position) production = .ok () ↔
      position.fileId ≤ 999999 ∧ position.offset ≤ 4294967296 ∧ Reached files position := by
  simp only [validateStableFiles,maxVlogFileId,maxVlogFileSize,bind_ok,exists_unit,rejectIf_ok,not_or,Nat.not_lt]
  constructor
  · rintro ⟨⟨named,sized⟩,accepted⟩
    obtain ⟨lower,len,last,reaches⟩ := validateStableFile_ok accepted
      (fun entry member => ((mem_takeWhile_le lists.ordered).mp member).2)
    refine ⟨named,sized,?_,?_⟩
    · intro fileId before
      obtain ⟨contents,found,full⟩ := lists.mem.mp
        ((mem_takeWhile_le lists.ordered).mp (lower fileId (Nat.zero_le _) before)).1
      exact ⟨contents,found,full⟩
    · obtain ⟨contents,found,sized⟩ := lists.mem.mp ((mem_takeWhile_le lists.ordered).mp last).1
      exact ⟨contents,found,by simp only at sized; omega⟩
  · rintro ⟨named,sized,lower,contents,found,reaches⟩
    refine ⟨⟨named,sized⟩,validateStableFile_reached ?_ (Nat.zero_le _) ?_ ?_ ?_ ?_⟩
    · exact lists.ordered.sublist (List.takeWhile_sublist _)
    · intro entry member
      exact ⟨Nat.zero_le _,((mem_takeWhile_le lists.ordered).mp member).2⟩
    · intro fileId _ until_
      obtain ⟨bytes,there⟩ : ∃ bytes, files[fileId]? = some bytes := by
        by_cases last : fileId = position.fileId
        · exact ⟨contents,by rw [last]; exact found⟩
        · obtain ⟨bytes,there,-⟩ := lower fileId (by omega)
          exact ⟨bytes,there⟩
      exact ⟨⟨fileId,bytes.length⟩,(mem_takeWhile_le lists.ordered).mpr ⟨lists.mem.mpr ⟨bytes,there,rfl⟩,until_⟩,rfl⟩
    · intro entry member before
      obtain ⟨bytes,there,sized⟩ := lists.mem.mp ((mem_takeWhile_le lists.ordered).mp member).1
      obtain ⟨other,same,full⟩ := lower entry.fileId before
      rw [there] at same
      obtain rfl := Option.some.inj same
      rw [← sized,full]
    · intro entry member last
      obtain ⟨bytes,there,sized⟩ := lists.mem.mp ((mem_takeWhile_le lists.ordered).mp member).1
      rw [last,found] at there
      obtain rfl := Option.some.inj there
      omega

def listedTopology (inventory : ManagedInventory) : RecoveryTopology :=
  ⟨inventory.vlogFiles.getLast?.map (fun entry => ⟨entry.fileId,entry.len⟩),inventory.vlogFiles.length⟩

-- The durable end as a place in the files: nothing to reach when there is none.
def ReachedEnd (files : Directory) : Option VLogPosition → Prop
  | none => True
  | some position => position.fileId ≤ 999999 ∧ position.offset ≤ 4294967296 ∧ Reached files position

theorem RecoveryTopology.analyze_ok (lists : inventory.Lists files) {stableEnd : Option VLogPosition}
    {topology : RecoveryTopology} :
    RecoveryTopology.analyze inventory stableEnd = .ok topology ↔
      ReachedEnd files stableEnd ∧ topology = listedTopology inventory := by
  have bounded : ∀ entry ∈ inventory.vlogFiles, entry.fileId ≤ 999999 ∧ entry.len ≤ 4294967296 := by
    intro entry member
    obtain ⟨contents,found,sized⟩ := lists.mem.mp member
    have bound := lists.bounded _ _ found
    exact ⟨bound.1,by omega⟩
  obtain ⟨last,order⟩ := @validateInventoryOrder_ok _ none bounded lists.ordered (fun _ _ _ no => by cases no)
  simp only [analyze,validateInventoryOrder,order,ok_bind,pure_ok,bind_ok,exists_unit,Except.ok.injEq]
  refine and_congr ?_ eq_comm
  cases stableEnd with
  | none => simp [validateStableFiles,ReachedEnd]
  | some position => exact validateStableFiles_reached lists

theorem RecoveryTopology.containsEnd_iff (lists : inventory.Lists files) {stableEnd : Option VLogPosition} :
    RecoveryTopology.containsEnd inventory stableEnd = true ↔
      ∀ position ∈ stableEnd, ∃ contents, files[position.fileId]? = some contents ∧ position.offset ≤ contents.length := by
  cases stableEnd with
  | none => simp [containsEnd]
  | some position =>
    simp only [containsEnd,Option.mem_def,Option.some.injEq,forall_eq']
    cases found : inventory.vlogFiles.find? (fun entry => entry.fileId == position.fileId) with
    | none =>
      simp only [Option.any_none,Bool.false_eq_true,false_iff]
      rintro ⟨contents,there,-⟩
      have absent := List.find?_eq_none.mp found ⟨position.fileId,contents.length⟩ (lists.mem.mpr ⟨contents,there,rfl⟩)
      simp at absent
    | some entry =>
      have same : entry.fileId = position.fileId := by simpa using List.find?_some found
      obtain ⟨contents,there,sized⟩ := lists.mem.mp (List.mem_of_find?_eq_some found)
      rw [same] at there
      simp only [Option.any_some,decide_eq_true_eq,there,Option.some.injEq,exists_eq_left',sized,ge_iff_le]

end lists

end ExpirKv
