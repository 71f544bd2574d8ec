import ExpirKv.Commit.Ordering

namespace ExpirKv
open VLogGeometry Storage CommitCoordinator

section batches
variable {left right : IndexAtomicBatch}

-- The transaction whose descriptor begins with a mutation.
def IndexMutation.transaction : IndexMutation → Option TxMeta
  | .putInternal .transaction key encoded => if (decodeTxMetaKey key).isOk then (decodeTxMeta encoded).toOption else none
  | _ => none

def IndexAtomicBatch.transactions (batch : IndexAtomicBatch) : List TxMeta := batch.filterMap IndexMutation.transaction

theorem IndexAtomicBatch.transactions_append : (left ++ right : IndexAtomicBatch).transactions =
    left.transactions ++ right.transactions := List.filterMap_append

theorem IndexAtomicBatch.transactions_nil {batch : IndexAtomicBatch}
    (none : ∀ mutation ∈ batch, mutation.transaction = none) : batch.transactions = [] :=
  List.filterMap_eq_nil_iff.mpr none

theorem removals_transactions (keys : List Bytes) : (removals keys).transactions = [] := by
  refine IndexAtomicBatch.transactions_nil fun mutation member => ?_
  obtain ⟨key,-,rfl⟩ := List.mem_map.mp member
  rfl

variable [Crc32c] {encoded : EncodedDescriptor} {descriptor : TransactionDescriptor}

theorem Stores.metaValue (stores : Stores encoded descriptor) : decodeTxMeta encoded.metaValue = .ok descriptor.txMeta := by
  have decodes := stores.decodes
  simp only [decodeDescriptor,bind_ok,exists_unit,pure_ok,Except.ok.injEq] at decodes
  obtain ⟨_,-,txMeta,read,-,-,_,-,-,-,rfl⟩ := decodes
  exact read

theorem Stores.placed (stores : Stores encoded descriptor) : descriptor.txMeta.placed = true := by
  have read := stores.metaValue
  simp only [decodeTxMeta,bind_ok,exists_unit,pure_ok,Except.ok.injEq] at read
  obtain ⟨-,_,-,-,_,-,_,-,_,-,_,-,_,-,_,-,_,-,_,-,_,-,_,-,_,-,valid,same⟩ := read
  rw [same] at valid
  exact (validateTxMeta_ok.mp valid).2

-- The entries of a transaction name it once.
theorem Stores.transactions (stores : Stores encoded descriptor) (plans : List KeyPlan) (commitSeq : Nat) :
    (commitBatch plans encoded commitSeq).transactions = [descriptor.txMeta] := by
  have users : (plans.map (fun plan => stateMutation plan.userKey plan.afterState)).filterMap IndexMutation.transaction =
      [] := by
    rw [List.filterMap_eq_nil_iff]
    intro mutation member
    obtain ⟨plan,-,rfl⟩ := List.mem_map.mp member
    unfold stateMutation
    split <;> rfl
  have others : (encoded.mutations.map EncodedMutation.put).filterMap IndexMutation.transaction = [] := by
    rw [List.filterMap_eq_nil_iff]
    intro mutation member
    obtain ⟨entry,there,rfl⟩ := List.mem_map.mp member
    obtain ⟨_,-,width⟩ := stores.mutationRead there
    have refused : decodeTxMetaKey entry.key = .error decodeCorruption := by
      simp [decodeTxMetaKey,width,rejectIf]
    simp only [EncodedMutation.put,IndexMutation.transaction,refused]
    rfl
  simp only [IndexAtomicBatch.transactions,commitBatch,List.filterMap_append,users,List.nil_append]
  rw [List.filterMap_cons_some (b := descriptor.txMeta)]
  · rw [List.filterMap_append,others]
    rfl
  · simp only [IndexMutation.transaction,stores.metaRead.1,stores.metaValue]
    rfl

end batches

section traces
variable {before after storage : Storage} {batch : IndexAtomicBatch} {mode : IndexCommitMode}
  {answer : Except IndexCommitError Unit}

-- Every transaction that the index took, oldest first.
def Event.transactions (trace : List Event) : List TxMeta :=
  (trace.filterMap Event.taken).reverse.flatMap IndexAtomicBatch.transactions

theorem Event.transactions_append (later earlier : List Event) :
    Event.transactions (later ++ earlier) = Event.transactions earlier ++ Event.transactions later := by
  simp [Event.transactions]

theorem Silently.transactions (silently : Silently before after) :
    Event.transactions after.trace = Event.transactions before.trace := by
  rw [Event.transactions,silently.taken]
  rfl

theorem Event.transactions_reopened (storage : Storage) : Event.transactions storage.reopened.trace = [] := by
  have untaken : storage.reopened.trace.filterMap Event.taken = [] := by
    rw [List.filterMap_eq_nil_iff]
    intro event member
    obtain ⟨file,-,rfl⟩ := List.mem_map.mp member
    rfl
  rw [Event.transactions,untaken]
  rfl

theorem Event.transactions_taken (earlier : List Event) (batch : IndexAtomicBatch) (first second : IndexCommitMode) :
    Event.transactions (.applied batch first :: .submitted batch second :: earlier) =
      Event.transactions earlier ++ batch.transactions := by
  refine (Event.transactions_append [.applied batch first,.submitted batch second] earlier).trans ?_
  simp [Event.transactions,Event.taken]

-- The index takes all of a batch or nothing of it, whatever it answers.
theorem IndexAnswered.took (answered : IndexAnswered storage batch mode answer after) :
    (after.index = storage.index ∧ Event.transactions after.trace = Event.transactions storage.trace) ∨
      (after.index = storage.index.apply batch ∧
        Event.transactions after.trace = Event.transactions storage.trace ++ batch.transactions) := by
  cases answered with
  | applied script => exact .inr ⟨rfl,Event.transactions_taken _ _ _ _⟩
  | refused source script => exact .inl ⟨rfl,rfl⟩
  | unknown source script => exact .inl ⟨rfl,rfl⟩
  | landed source script => exact .inr ⟨rfl,Event.transactions_taken _ _ _ _⟩

end traces

section arriving
variable {transactions : List TxMeta} {accepted : Accepted} {descriptor : TransactionDescriptor}

-- Where a database stands behind its transactions.
inductive Arrives : List TxMeta → Accepted → Prop
  | nothing : Arrives [] ⟨0,0,none⟩
  | delete {transactions : List TxMeta} {accepted : Accepted} {txMeta : TxMeta} : Arrives transactions accepted →
      txMeta.transactionKind = .indexOnlyDelete → txMeta.commitSeq = accepted.seq + 1 →
      Arrives (transactions ++ [txMeta]) {accepted with seq := txMeta.commitSeq}
  | envelope {transactions : List TxMeta} {accepted : Accepted} {txMeta : TxMeta} : Arrives transactions accepted →
      txMeta.transactionKind = .vlogEnvelope → txMeta.commitSeq = accepted.seq + 1 →
      txMeta.vlogBegin = appendPosition accepted.vlogEnd → txMeta.placed = true →
      Arrives (transactions ++ [txMeta]) ⟨txMeta.commitSeq,txMeta.commitSeq,some txMeta.vlogEnd⟩

theorem Arrives.take (arrives : Arrives transactions accepted) (number : descriptor.txMeta.commitSeq = accepted.seq + 1)
    (begins : descriptor.txMeta.transactionKind = .vlogEnvelope →
      descriptor.txMeta.vlogBegin = appendPosition accepted.vlogEnd) (placed : descriptor.txMeta.placed = true) :
    Arrives (transactions ++ [descriptor.txMeta]) (accepted.take descriptor) := by
  cases kind : descriptor.txMeta.transactionKind with
  | indexOnlyDelete =>
    simp only [Accepted.take,kind]
    exact arrives.delete kind number
  | vlogEnvelope =>
    simp only [Accepted.take,kind]
    exact arrives.envelope kind number (begins kind) placed

theorem Arrives.seq (arrives : Arrives transactions accepted) : accepted.seq = transactions.length := by
  induction arrives with
  | nothing => rfl
  | delete _ _ number ih => rw [List.length_append,List.length_singleton,←ih,←number]
  | envelope _ _ number _ _ ih => rw [List.length_append,List.length_singleton,←ih,←number]

theorem Arrives.numbered (arrives : Arrives transactions accepted) :
    ∀ place (bound : place < transactions.length), (transactions[place]).commitSeq = place + 1 := by
  have next : ∀ {transactions : List TxMeta} {accepted : Accepted} {txMeta : TxMeta}, Arrives transactions accepted →
      txMeta.commitSeq = accepted.seq + 1 →
      (∀ place (bound : place < transactions.length), (transactions[place]).commitSeq = place + 1) →
      ∀ place (bound : place < (transactions ++ [txMeta]).length),
        ((transactions ++ [txMeta])[place]).commitSeq = place + 1 := by
    intro transactions accepted txMeta earlier number others place bound
    rw [List.length_append,List.length_singleton] at bound
    by_cases inside : place < transactions.length
    · rw [List.getElem_append_left inside]
      exact others place inside
    · obtain rfl : place = transactions.length := by omega
      rw [List.getElem_append_right (Nat.le_refl _)]
      simpa [←earlier.seq] using number
  induction arrives with
  | nothing => exact fun place bound => absurd bound (Nat.not_lt_zero place)
  | delete earlier _ number ih => exact next earlier number ih
  | envelope earlier _ number _ _ ih => exact next earlier number ih

-- A frontier that covers all of the transactions names the last envelope among them and its end.
structure NamesLatest (transactions : List TxMeta) (frontier : DurableFrontier) : Prop where
  numbered : ∀ place (bound : place < transactions.length), (transactions[place]).commitSeq = place + 1
  covers : frontier.durableSeq = transactions.length
  last : ∀ txMeta ∈ transactions, txMeta.transactionKind = .vlogEnvelope → txMeta.commitSeq ≤ frontier.durableVlogSeq
  ends : frontier.durableVlogSeq = 0 ∧ frontier.durableVlogEnd = none ∨
    ∃ txMeta ∈ transactions, txMeta.transactionKind = .vlogEnvelope ∧ txMeta.commitSeq = frontier.durableVlogSeq ∧
      frontier.durableVlogEnd = some txMeta.vlogEnd

theorem Arrives.latest (arrives : Arrives transactions accepted) :
    NamesLatest transactions ⟨accepted.seq,accepted.vlogSeq,accepted.vlogEnd⟩ := by
  refine ⟨arrives.numbered,arrives.seq,?_,?_⟩
  · have low : ∀ {transactions : List TxMeta} {accepted : Accepted}, Arrives transactions accepted →
        ∀ txMeta ∈ transactions, txMeta.commitSeq ≤ accepted.seq := by
      intro transactions accepted arrives txMeta member
      obtain ⟨place,bound,rfl⟩ := List.mem_iff_getElem.mp member
      rw [arrives.numbered place bound,arrives.seq]
      exact bound
    intro txMeta member kind
    induction arrives with
    | nothing => cases member
    | delete _ other _ ih =>
      rcases List.mem_append.mp member with inside | here
      · exact ih inside
      · rw [List.mem_singleton.mp here,other] at kind
        cases kind
    | envelope earlier same number begins placed ih => exact low (earlier.envelope same number begins placed) txMeta member
  · induction arrives with
    | nothing => exact .inl ⟨rfl,rfl⟩
    | delete _ _ _ ih =>
      rcases ih with none | ⟨txMeta,member,kind,seq,stop⟩
      · exact .inl none
      · exact .inr ⟨txMeta,List.mem_append_left _ member,kind,seq,stop⟩
    | @envelope _ _ txMeta _ kind _ _ _ ih => exact .inr ⟨txMeta,by simp,kind,rfl,rfl⟩

-- Every byte of an envelope is in the files.
def TxMeta.InFiles (files : Directory) (txMeta : TxMeta) : Prop :=
  txMeta.transactionKind = .vlogEnvelope → ∀ position : VLogPosition, txMeta.vlogBegin ≤ position →
    position < txMeta.vlogEnd → position.offset < 4294967296 →
    ∃ contents, files[position.fileId]? = some contents ∧ position.offset < contents.length

variable {files : Directory}

-- The envelopes lie one behind the other from the beginning of the log.
theorem Arrives.inFiles (arrives : Arrives transactions accepted) : (∀ txMeta ∈ transactions, txMeta.InFiles files) ↔
    ∀ position : VLogPosition, position < appendPosition accepted.vlogEnd → position.offset < 4294967296 →
      ∃ contents, files[position.fileId]? = some contents ∧ position.offset < contents.length := by
  induction arrives with
  | nothing =>
    refine ⟨fun _ position before => ?_,fun _ txMeta member => by cases member⟩
    simp [appendPosition,VLogPosition.lt_def] at before
  | @delete transactions accepted txMeta _ kind _ ih =>
    rw [←ih,List.forall_mem_append]
    refine ⟨And.left,fun others => ⟨others,fun last member => ?_⟩⟩
    obtain rfl := List.mem_singleton.mp member
    intro other
    rw [kind] at other
    cases other
  | @envelope transactions accepted txMeta _ kind _ begins placed ih =>
    rw [List.forall_mem_append,ih]
    have forward : txMeta.vlogBegin < txMeta.vlogEnd := by
      simp only [TxMeta.placed,kind,Bool.and_eq_true,decide_eq_true_eq] at placed
      exact placed.2
    constructor
    · rintro ⟨others,last⟩ position before small
      by_cases inside : txMeta.vlogBegin ≤ position
      · exact last txMeta (List.mem_singleton_self _) kind position inside before small
      · exact others position (begins ▸ VLogPosition.not_le.mp inside) small
    · intro all
      refine ⟨fun position before small => all position (VLogPosition.lt_trans (begins ▸ before) forward) small,
        fun last member => ?_⟩
      obtain rfl := List.mem_singleton.mp member
      exact fun _ position _ before small => all position before small

theorem Arrives.valid (arrives : Arrives transactions accepted) :
    ∀ position ∈ accepted.vlogEnd, position.fileId ≤ 999999 ∧ position.offset ≤ 4294967296 := by
  induction arrives with
  | nothing => exact fun _ none => by cases none
  | delete _ _ _ ih => exact ih
  | envelope _ _ _ _ placed _ =>
    rintro position same
    obtain rfl := Option.some.inj same
    exact VLogPosition.isValid_iff.mp (TxMeta.placed_valid placed).2

-- The bytes in front of an end are in the files just where these reach it.
theorem ReachedEnd.iff_inFiles {stop : Option VLogPosition}
    (sized : ∀ (fileId : Nat) (contents : Bytes), files[fileId]? = some contents → contents.length ≤ 4294967296)
    (room : ∀ position ∈ stop, position.fileId ≤ 999999 ∧ 0 < position.offset ∧ position.offset ≤ 4294967296) :
    ReachedEnd files stop ↔ ∀ position : VLogPosition, position < appendPosition stop → position.offset < 4294967296 →
      ∃ contents, files[position.fileId]? = some contents ∧ position.offset < contents.length := by
  cases stop with
  | none =>
    refine ⟨fun _ position before => ?_,fun _ => trivial⟩
    simp [appendPosition,VLogPosition.lt_def] at before
  | some last =>
    obtain ⟨named,begun,small⟩ := room last rfl
    simp only [appendPosition,Option.getD_some]
    constructor
    · rintro ⟨-,-,full,contents,found,reaches⟩ position before inside
      rcases VLogPosition.lt_def _ _ |>.mp before with lower | ⟨same,earlier⟩
      · obtain ⟨whole,there,width⟩ := full position.fileId lower
        exact ⟨whole,there,by omega⟩
      · rw [same]
        exact ⟨contents,found,by omega⟩
    · intro all
      refine ⟨named,small,fun fileId lower => ?_,?_⟩
      · obtain ⟨contents,found,longer⟩ := all ⟨fileId,4294967295⟩ (.inl lower) (by simp only; omega)
        have limit := sized fileId contents found
        exact ⟨contents,found,by simp only at longer; omega⟩
      · obtain ⟨contents,found,longer⟩ := all ⟨last.fileId,last.offset - 1⟩ (.inr ⟨rfl,by simp only; omega⟩)
          (by simp only; omega)
        exact ⟨contents,found,by simp only at longer; omega⟩

end arriving

section submitting
variable [Crc32c] {c next : CommitCoordinator} {request : WriteRequest} {around : Surroundings} {appended : ValueLog}
  {submission : Submission} {transactions : List TxMeta}

theorem addFrontier_transactions {batch result : IndexAtomicBatch} {frontier : Option DurableFrontier}
    {operation : Operation} {framed : Bool} (added : addFrontier batch frontier operation framed = .ok result) :
    result.transactions = batch.transactions := by
  unfold addFrontier at added
  split at added
  · obtain ⟨-,bytes,-,rfl⟩ := addFrontierToBatch_ok.mp added
    rw [IndexAtomicBatch.transactions_append]
    exact List.append_nil _
  · rw [Except.ok.inj added]

-- A prepared write is one transaction of its batch.
theorem Prepares.single {write : ValidatedWrite} {headSeq : Nat} {vlogContext : Option VlogContext}
    {read : Bytes → Option Bytes} {prepared : PreparedCommit} {descriptor : TransactionDescriptor}
    (prepares : Prepares write headSeq vlogContext read prepared descriptor) :
    ∃ encoded crc, Stores encoded (descriptor.sealed crc) ∧
      prepared.indexBatch.transactions = [(descriptor.sealed crc).txMeta] := by
  obtain ⟨encoded,written,entries⟩ := prepares.batch
  obtain ⟨crc,stores⟩ := encodeDescriptor_stores written prepares.fits
  refine ⟨encoded,crc,stores,?_⟩
  rw [entries]
  exact stores.transactions _ _

-- A batch is one transaction of the kind of its write, or none for a barrier.
theorem Submits.single (submits : Submits c around request appended submission) :
    submission.batch.transactions = [] ∧ request.operations = [] ∨
    ∃ write txMeta, request = .nonempty write ∧ submission.batch.transactions = [txMeta] ∧
      txMeta.transactionKind = write.transactionKind := by
  cases submits with
  | @nonempty write prepared batch _ ran framed laid =>
    obtain ⟨descriptor,prepares⟩ := CommitCoordinator.prepare_ok ran
    obtain ⟨_,crc,-,single⟩ := prepares.single
    refine .inr ⟨write,_,rfl,(addFrontier_transactions framed).trans single,?_⟩
    simp only [TransactionDescriptor.sealed,prepares.described]
    rfl
  | barrier _ made =>
    obtain ⟨-,-,bytes,-,rfl⟩ := frontierOnlyBatch_ok.mp made
    exact .inl ⟨rfl,rfl⟩

-- What a batch adds to the transactions brings them to the state that is published with it.
theorem Submits.arrives (grounded : Grounded c) (healthy : c.runtime.state.instanceState = .healthy)
    (submits : Submits c around request appended submission) (arrives : Arrives transactions c.state.accepted) :
    Arrives (transactions ++ submission.batch.transactions) submission.published.accepted ∧
      (submission.batch.transactions.flatMap fun _ => request.operations) = request.operations := by
  cases submits with
  | @nonempty write prepared batch _ ran framed laid =>
    obtain ⟨descriptor,prepares⟩ := CommitCoordinator.prepare_ok ran
    obtain ⟨_,crc,stores,single⟩ := prepares.single
    have whole := (addFrontier_transactions framed).trans single
    have number : (descriptor.sealed crc).txMeta.commitSeq = c.state.accepted.seq + 1 := by
      simp only [TransactionDescriptor.sealed,prepares.described]
      rfl
    have begins := fun kind => (grounded.acceptable healthy ran laid prepares crc kind).1
    have reached := arrives.take number begins stores.placed
    have head : (c.state.submission write prepared batch).published.accepted = c.state.accepted.take descriptor :=
      CommitState.submission_accepted ran prepares
    rw [Accepted.take_sealed,←head] at reached
    refine ⟨?_,?_⟩
    · rw [show (c.state.submission write prepared batch).batch = batch from rfl,whole]
      exact reached
    · rw [show (c.state.submission write prepared batch).batch = batch from rfl,whole]
      exact List.append_nil _
  | barrier _ made =>
    obtain ⟨-,-,bytes,-,rfl⟩ := frontierOnlyBatch_ok.mp made
    simp only [CommitState.barrierSubmission]
    exact ⟨(List.append_nil transactions).symm ▸ arrives,rfl⟩

-- What a request came to for the index: nothing, or all of its batch.
theorem RequestOutcome.took {ended : Option Halt} (outcome : RequestOutcome c request around next ended) :
    (next.log.storage.index = c.log.storage.index ∧
      Event.transactions next.log.storage.trace = Event.transactions c.log.storage.trace ∧ (ended = none → next = c)) ∨
    ∃ appended synced submission token answer, c.Admits ∧ Submits c around request appended submission ∧
      TargetSynced appended submission.targetSeq submission.targetEnd submission.needed token synced ∧
      IndexAnswered synced.storage submission.batch submission.mode answer next.log.storage ∧
      next.log.storage.index = c.log.storage.index.apply submission.batch ∧
      Event.transactions next.log.storage.trace =
        Event.transactions c.log.storage.trace ++ submission.batch.transactions ∧
      (∀ halt, ended = some halt → halt.InDoubt) ∧
      (next.runtime.state.instanceState = .healthy → ended = none ∧ next.state = submission.published ∧
        next.log.writer.position = appended.writer.position) := by
  cases outcome with
  | notAdmitted _ same => exact .inl ⟨by rw [same],by rw [same],nofun⟩
  | nothing _ _ _ same => exact .inl ⟨by rw [same],by rw [same],fun _ => same⟩
  | notPrepared _ _ refused => exact .inl ⟨by rw [refused.log],by rw [refused.log],nofun⟩
  | notAppended _ _ _ _ _ failed refused =>
    obtain ⟨⟨flag,frame⟩,-⟩ := failed.frame
    rw [refused.log]
    exact .inl ⟨frame.index,frame.silently.transactions,nofun⟩
  | notSynced _ submits _ failed refused =>
    rw [refused.log]
    exact .inl ⟨failed.storage.index.trans submits.index,
      (submits.silently.trans failed.storage.silently).transactions,nofun⟩
  | notIndexed identity admits submits reached answered settled refused =>
    rw [refused.log,settled.storage]
    have before := (submits.silently.trans reached.silently).transactions
    have index := reached.index.trans submits.index
    cases answered with
    | refused source script => exact .inl ⟨index,before,nofun⟩
    | unknown source script => exact .inl ⟨index,before,nofun⟩
    | landed source script =>
      refine .inr ⟨_,_,_,_,_,admits,submits,reached,.landed source script,by rw [←index]; rfl,?_,?_,fun healthy => ?_⟩
      · rw [←before]
        exact Event.transactions_taken _ _ _ _
      · rintro halt ⟨⟩
        obtain ⟨final,failed,-,-,-,outcome,-⟩ := refused.reported
        exact ⟨final,failed,outcome.trans (indexFailure_unknown request source identity).1⟩
      · exact absurd (failureState_healthy (refused.stays healthy).2) (indexFailure_stops request _ identity)
  | @indexed appended synced submission token storage stats admits submits reached answered same books =>
    subst same
    have before := (submits.silently.trans reached.silently).transactions
    have index := reached.index.trans submits.index
    refine .inr ⟨_,_,_,_,_,admits,submits,reached,answered,?_,?_,fun _ none => (by cases none),fun _ => ⟨rfl,rfl,?_⟩⟩
    · cases answered with
      | applied script =>
        rw [←index]
        rfl
    · cases answered with
      | applied script =>
        rw [←before]
        exact Event.transactions_taken _ _ _ _
    · cases token <;> rfl

end submitting

section counting
variable [Crc32c] {c next start : CommitCoordinator} {request : WriteRequest} {around : Surroundings}
  {appended synced : ValueLog} {submission : Submission} {token : Option FrontierSync} {ended : Option Halt}
  {begun : List TxMeta} {past : List Attempt}

-- A frontier on its way to the index stands behind everything that the index took, the batch it goes with included.
def Event.Counts (begun : List TxMeta) (earlier : List Event) (event : Event) : Prop :=
  ∀ frontier : DurableFrontier, event.Sends frontier → ∀ batch mode, event = .submitted batch mode →
    Arrives (begun ++ Event.transactions earlier ++ batch.transactions) (.start frontier)

theorem Event.Quiet.counts {event : Event} (quiet : event.Quiet) (earlier : List Event) :
    Event.Counts begun earlier event := fun _ _ batch mode same => absurd same (quiet batch mode)

structure Counted (begun : List TxMeta) (c : CommitCoordinator) : Prop where
  grown : Grown (Event.Counts begun) c.log.storage.trace
  arrives : c.runtime.state.instanceState = .healthy →
    Arrives (begun ++ Event.transactions c.log.storage.trace) c.state.accepted

-- An instance begins where the transactions that it found arrive.
theorem Counted.found {storage : Storage} (same : c.log.storage = storage.reopened)
    (arrives : Arrives begun c.state.accepted) : Counted begun c := by
  refine ⟨?_,fun _ => ?_⟩
  · rw [←List.append_nil c.log.storage.trace,same]
    refine Grown.start.follows fun event member before => Event.Quiet.counts ?_ before
    obtain ⟨file,-,rfl⟩ := List.mem_map.mp member
    exact nofun
  · rw [same,Event.transactions_reopened,List.append_nil]
    exact arrives

theorem Counted.silently (counted : Counted begun c) (silently : Silently c.log.storage next.log.storage)
    (still : next.runtime.state.instanceState = .healthy → c.runtime.state.instanceState = .healthy ∧ next.state = c.state) :
    Counted begun next := by
  have same := silently.transactions
  obtain ⟨events,grows,silent⟩ := silently
  refine ⟨?_,fun healthy => ?_⟩
  · rw [grows]
    exact counted.grown.follows fun event member => (silent event member).1.counts
  · obtain ⟨earlier,state⟩ := still healthy
    rw [same,state]
    exact counted.arrives earlier

-- A batch that goes to the index, whatever becomes of it.
theorem Counted.hands {storage : Storage} {answer : Except IndexCommitError Unit} (counted : Counted begun c)
    (grounded : Grounded c) (healthy : c.runtime.state.instanceState = .healthy)
    (submits : Submits c around request appended submission)
    (reached : TargetSynced appended submission.targetSeq submission.targetEnd submission.needed token synced)
    (answered : IndexAnswered synced.storage submission.batch submission.mode answer storage)
    (same : next.log.storage = storage)
    (published : next.runtime.state.instanceState = .healthy → answer = .ok () ∧ next.state = submission.published) :
    Counted begun next := by
  have silently := submits.silently.trans reached.silently
  have before := silently.transactions
  obtain ⟨between,grows,silent⟩ := silently
  obtain ⟨events,after,quiet⟩ := answered.hands
  have furthers := (grounded.sound.accounted healthy).furthers grounded.sound.books grounded.sound.ready submits
  obtain ⟨arrived,-⟩ := submits.arrives grounded healthy (counted.arrives healthy)
  have earlier : Grown (Event.Counts begun) synced.storage.trace := by
    rw [grows]
    exact counted.grown.follows fun event member => (silent event member).1.counts
  have counts : Event.Counts begun synced.storage.trace (.submitted submission.batch submission.mode) := by
    rintro frontier ⟨_,_,encoded,⟨⟩,carried,decoded⟩ _ _ ⟨⟩
    obtain ⟨-,promised,encodes⟩ := submits.sends.2 encoded carried
    obtain rfl := Except.ok.inj ((DurableFrontier.decode_encode encodes furthers.fits).1.symm.trans decoded)
    have head : Accepted.start submission.published.durableFrontier = submission.published.accepted := by
      rcases furthers.frontier with ⟨none,-⟩ | ⟨-,same⟩
      · rw [promised] at none
        cases none
      · obtain ⟨vlogSeq,ends⟩ := furthers.head
        rw [same,←vlogSeq,←ends]
        rfl
    rw [head,before]
    exact arrived
  refine ⟨?_,fun still => ?_⟩
  · rw [same,after]
    exact (Grown.event earlier counts).follows fun event member => (quiet event member).counts
  · obtain ⟨rfl,state⟩ := published still
    rw [same,state]
    cases answered with
    | applied script =>
      rw [show Event.transactions (Storage.committed _ _ _).trace = _ from Event.transactions_taken _ _ _ _,before,
        ←List.append_assoc]
      exact arrived

theorem RequestOutcome.counted (grounded : Grounded c) (counted : Counted begun c)
    (outcome : RequestOutcome c request around next ended) : Counted begun next := by
  cases outcome with
  | notAdmitted _ same => exact same ▸ counted
  | nothing _ _ _ same => exact same ▸ counted
  | notPrepared _ _ refused =>
    have log : next.log = c.log := refused.log
    exact counted.silently (by rw [log]; exact .refl _) fun healthy => ⟨(Declined.stays refused healthy).1,refused.state⟩
  | notAppended _ _ _ _ _ failed refused =>
    obtain ⟨⟨flag,frame⟩,-⟩ := failed.frame
    exact counted.silently (by rw [refused.log]; exact frame.silently) fun healthy =>
      ⟨(refused.stays healthy).1,refused.state⟩
  | notSynced _ submits _ failed refused =>
    exact counted.silently (by rw [refused.log]; exact submits.silently.trans failed.storage.silently) fun healthy => by
      cases (refused.stays healthy).2
  | notIndexed identity admits submits reached answered settled refused =>
    refine counted.hands grounded admits.healthy submits reached answered ?_ fun healthy => ?_
    · rw [refused.log]
      exact settled.storage
    · exact absurd (failureState_healthy (refused.stays healthy).2) (indexFailure_stops request _ identity)
  | indexed admits submits reached answered same _ =>
    subst same
    exact counted.hands grounded admits.healthy submits reached answered rfl fun _ => ⟨rfl,rfl⟩

theorem Counted.cleaned {storage : Storage} (counted : Counted begun c) (clean : Cleaned c.log.storage storage) :
    Counted begun {c with log := {c.log with storage}} := by
  obtain ⟨keys,_,-,answered⟩ := clean.batch
  have same : Event.transactions storage.trace = Event.transactions c.log.storage.trace := by
    rcases answered.took with ⟨-,none⟩ | ⟨-,whole⟩
    · exact none
    · rw [whole,removals_transactions,List.append_nil]
  obtain ⟨events,trace,quiet⟩ := answered.hands
  refine ⟨?_,fun healthy => ?_⟩
  · simp only [trace]
    refine (Grown.event counted.grown ?_).follows fun event member => (quiet event member).counts
    rintro frontier ⟨_,_,encoded,⟨⟩,carried,-⟩
    obtain ⟨key,-,no⟩ := List.mem_map.mp carried
    cases no
  · simp only [same]
    exact counted.arrives healthy

theorem Counted.run (counted : Counted begun start) (grounded : Grounded start) (run : LiveRun start past c) :
    Counted begun c := by
  induction run with
  | start => exact counted
  | answered earlier ran ih =>
    have before := (grounded.run earlier.instanceRun).1
    exact ((commit_outcome before.sound.books before.sound.identified before.sound.ordered _ _).of_ok ran).counted before ih
  | failed earlier ran ih =>
    have before := (grounded.run earlier.instanceRun).1
    have outcome := (commit_outcome before.sound.books before.sound.identified before.sound.ordered _ _).of_error ran
    exact outcome.counted before ih
  | @elsewhere _ c runtime _ later ih =>
    exact ih.silently (.refl _) fun healthy => ⟨later.healthy healthy,rfl⟩
  | cleaned _ clean ih => exact ih.cleaned clean
  | facing script _ ih => exact ih.silently (facing_silently _ script) fun healthy => ⟨healthy,rfl⟩

end counting

end ExpirKv
