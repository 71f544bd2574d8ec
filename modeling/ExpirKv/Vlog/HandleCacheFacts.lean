import ExpirKv.Library.FifoCache
import ExpirKv.Vlog.HandleThreads

namespace ExpirKv

namespace HandleCaching

-- The map and the queue stand for one cache, whose keys go from the newest to the oldest.
structure Represents {capacity : Nat} (inner : HandleCacheInner) (cache : FifoCache Nat Handle capacity) : Prop where
  order : inner.insertionOrder = cache.keys.reverse
  handles : ∀ fileId, inner.handles[fileId]? = cache.lookup fileId

section refinement
variable {capacity fileId : Nat} {candidate : Handle} {inner : HandleCacheInner} {cache : FifoCache Nat Handle capacity}

theorem Represents.fresh : Represents ⟨∅,[]⟩ (FifoCache.empty : FifoCache Nat Handle capacity) :=
  ⟨rfl,fun _ => Std.ExtTreeMap.getElem?_empty⟩

theorem Represents.cached (represents : Represents inner cache) : fileId ∈ inner.handles ↔ fileId ∈ cache.keys := by
  rw [Std.ExtTreeMap.mem_iff_isSome_getElem?,represents.handles,FifoCache.mem_keys]

theorem Represents.listed (represents : Represents inner cache) :
    fileId ∈ inner.insertionOrder ↔ fileId ∈ inner.handles := by
  rw [represents.order,List.mem_reverse,represents.cached]

theorem Represents.size (represents : Represents inner cache) : inner.handles.size = cache.keys.length := by
  have same : inner.handles.keys.Perm cache.keys := by
    rw [List.perm_ext_iff_of_nodup Std.ExtTreeMap.nodup_keys cache.keys_nodup]
    intro key
    rw [Std.ExtTreeMap.mem_keys,represents.cached]
  rw [← Std.ExtTreeMap.length_keys,same.length_eq]

theorem Represents.erase (represents : Represents inner cache) {order : List Nat}
    (left : order = (cache.keys.erase fileId).reverse) :
    Represents ⟨inner.handles.erase fileId,order⟩ (cache.remove fileId) := by
  constructor
  · rw [left,FifoCache.keys_remove]
  · intro other
    rw [Std.ExtTreeMap.getElem?_erase,FifoCache.lookup_remove,represents.handles]
    simp only [Std.LawfulEqCmp.compare_eq_iff_eq]
    simp only [eq_comm]

theorem Represents.remove (represents : Represents inner cache) (fileId : Nat) :
    Represents (inner.remove fileId).2 (cache.remove fileId) := by
  apply represents.erase
  rw [represents.order,List.filter_reverse,cache.keys_nodup.erase_eq_filter]
  simp only [ne_eq,decide_not]
  rfl

-- What stands first in the queue is the oldest key, and the rest of the queue are the other keys.
theorem Represents.pop (represents : Represents inner cache) {oldest : Nat} {order : List Nat}
    (queue : inner.insertionOrder = oldest :: order) :
    cache.keys.getLast? = some oldest ∧ order = (cache.keys.erase oldest).reverse := by
  have reversed : cache.keys = order.reverse ++ [oldest] := by
    rw [← List.reverse_reverse cache.keys,← represents.order,queue,List.reverse_cons]
  have distinct := cache.keys_nodup
  rw [reversed] at distinct
  have absent : oldest ∉ order.reverse := by
    intro member
    exact (List.nodup_append.mp distinct).2.2 oldest member oldest (List.mem_singleton_self oldest) rfl
  rw [reversed,List.erase_append_right _ absent]
  simp

theorem Represents.makeRoom (represents : Represents inner cache) (positive : 0 < capacity) :
    ∃ room, inner.makeRoom capacity =
        .ok (cache.victim.map (fun oldest => (oldest,cache.lookup oldest)),room) ∧ Represents room cache.room := by
  unfold HandleCacheInner.makeRoom
  by_cases full : inner.handles.size = capacity
  · cases queue : inner.insertionOrder with
    | nil =>
      have nothing : cache.keys = [] := by
        rw [← List.reverse_reverse cache.keys,← represents.order,queue,List.reverse_nil]
      rw [represents.size,nothing,List.length_nil] at full
      omega
    | cons oldest order =>
      obtain ⟨last,rest⟩ := represents.pop queue
      have victim : cache.victim = some oldest := by
        rw [FifoCache.victim,if_pos (represents.size.symm.trans full),last]
      refine ⟨⟨inner.handles.erase oldest,order⟩,?_,?_⟩
      · rw [if_pos full,victim,Option.map_some]
        simp only [represents.handles]
      · rw [FifoCache.room,victim]
        exact represents.erase rest
  · have victim : cache.victim = none := by
      rw [FifoCache.victim,if_neg (fun length => full (represents.size.trans length))]
    refine ⟨inner,?_,?_⟩
    · rw [if_neg full,victim,Option.map_none]
    · rw [FifoCache.room,victim]
      exact represents

theorem Represents.store (represents : Represents inner cache) (positive : 0 < capacity)
    (missing : cache.lookup fileId = none) :
    ∃ after, inner.insertOrGet capacity fileId candidate =
        .ok (.stored (cache.victim.map (fun oldest => (oldest,cache.lookup oldest))),after) ∧
      Represents after (cache.insertOrGet fileId candidate) := by
  obtain ⟨room,made,left⟩ := represents.makeRoom positive
  refine ⟨⟨room.handles.insert fileId candidate,room.insertionOrder ++ [fileId]⟩,?_,?_,?_⟩
  · rw [HandleCacheInner.insertOrGet,represents.handles,missing]
    simp only [made,ok_bind,pure_ok]
  · rw [FifoCache.keys_store positive missing,List.reverse_cons,left.order]
  · intro other
    rw [Std.ExtTreeMap.getElem?_insert,left.handles,FifoCache.lookup_store positive missing,FifoCache.lookup_room]
    simp only [Std.LawfulEqCmp.compare_eq_iff_eq]
    simp only [eq_comm]

theorem Represents.found (represents : Represents inner cache) {existing : Handle}
    (found : cache.lookup fileId = some existing) :
    inner.insertOrGet capacity fileId candidate = .ok (.existing existing,inner) := by
  rw [HandleCacheInner.insertOrGet,represents.handles,found]

end refinement

-- The descriptor shows one file that nobody changes while it is looked at.
def OpenedFile.Shows (file : OpenedFile) (bytes : Bytes) : Prop :=
  ∀ call place, place < bytes.length → bytes[place]? = some (file.contents call place)

theorem OpenedFile.readExactAt_shows {file : OpenedFile} {bytes read : Bytes} {len offset fileId : Nat}
    (shows : file.Shows bytes) (inside : offset + len ≤ bytes.length)
    (answered : file.readExactAt len offset fileId = .ok read) : slice? bytes offset len = some read := by
  have begun : Retrying.Attempts file.device 0 0 := .fresh _
  have exact := @Retrying.readExactAtImpl_exact file.device file.contents fileId (len * 12 + 12) [] len offset 0 0
    (by omega) (by omega) (by omega) begun
  unfold readExactAt at answered
  unfold Delivers at exact
  cases ran : Retrying.readExactAtImpl (Retrying.Device.readAt file.contents) fileId [] len offset 0 0 file.device with
  | error error after =>
    rw [ran] at answered
    cases answered
  | ok buffer after =>
    rw [ran] at answered exact
    obtain rfl := Except.ok.inj answered
    obtain ⟨part,same,width,found,-⟩ := exact
    rw [List.nil_append] at same
    rw [slice?_eq_some]
    refine ⟨inside,List.ext_getElem? ?_⟩
    intro place
    rw [same]
    by_cases within : place < part.length
    · obtain ⟨call,byte⟩ := found place within
      rw [byte,List.getElem?_take,if_pos (by omega),List.getElem?_drop]
      exact (shows call (offset + place) (by omega)).symm
    · rw [List.getElem?_eq_none (by omega),List.getElem?_take,if_neg (by omega)]

variable [Crc32c]

-- What passes here passes in the reader, which leaves the cache out.
theorem FileSet.validateCandidate_shows {files : FileSet} {reader : ExpirKv.FileSet} {fileId : Nat}
    {expected : FileIdentity} {file : OpenedFile} {metadata : Metadata} {bytes : Bytes}
    (databaseUuid : reader.databaseUuid = files.databaseUuid) (geometry : reader.geometry = files.geometry)
    (shown : file.metadata = .ok metadata) (sized : metadata.len = bytes.length) (shows : file.Shows bytes)
    (long : 64 ≤ bytes.length) (valid : files.validateCandidate fileId expected file = .ok ()) :
    reader.validateCandidate fileId bytes = .ok () := by
  simp only [validateCandidate,bind_ok,exists_unit,rejectIf_ok,mapError_ok,not_or,not_not,ne_eq,shown,
    Except.ok.injEq] at valid
  obtain ⟨found,rfl,⟨-,-,fits⟩,encoded,read,header,decoded,same⟩ := valid
  have taken : slice? bytes 16 48 = some encoded := OpenedFile.readExactAt_shows shows (by simpa using long) read
  refine ExpirKv.FileSet.validateCandidate_ok.mpr ⟨?_,encoded,taken,header,decoded,?_⟩
  · rw [geometry]
    omega
  · rw [databaseUuid]
    exact same

end HandleCaching

end ExpirKv
