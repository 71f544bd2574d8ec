import ExpirKv.Cleanup
import ExpirKv.Recovery.Analyze
import ExpirKv.Recovery.TopologyFacts

namespace ExpirKv

-- What a directory entry can be. The entries of a directory stand in the order `read_dir` gives them.
inductive Node where
  | file (contents : Bytes)
  | directory (entries : List (Bytes × Node))
  | symlink
  | other

section names

-- `b".data"`.
def vlogSuffix : Bytes := [0x2E,0x64,0x61,0x74,0x61]

def isAsciiDigit (byte : UInt8) : Bool := decide (48 ≤ byte.toNat ∧ byte.toNat ≤ 57)

-- `str::parse::<u32>` on digits.
def digitsValue (digits : Bytes) : Nat := digits.foldl (fun value digit => value * 10 + (digit.toNat - 48)) 0

def parseU32 (digits : Bytes) : Option Nat :=
  if digits.isEmpty ∨ digitsValue digits ≥ 4294967296 then none else some (digitsValue digits)

-- A name that is not UTF-8 holds a byte that is neither digit nor in the fixed parts, so both parsers
-- refuse it like the check before them, with the same error.
def parseVlogFileName (name : Bytes) : Option Nat := do
  if name.length ≠ 12 ∨ name.head? ≠ some 0x44 ∨ vlogSuffix.isSuffixOf name = false then none
  let digits ← slice? name 1 6
  if digits.all isAsciiDigit = false then none
  let fileId ← parseU32 digits
  if fileId ≤ maxVlogFileId then some fileId else none

def parseDestroyVlogName (name : Bytes) : Option Nat := do
  let rest ← [0x44].isPrefixOf? name
  let digits ← vlogSuffix.isSuffixOf? rest
  if digits.length ≠ 6 ∨ digits.all isAsciiDigit = false then none
  (parseU32 digits).filter (fun fileId => decide (fileId ≤ 999999))

-- `format!("{:06}")` of a number that fits.
def paddedDigits : Nat → Nat → Bytes
  | 0,_ => []
  | width + 1,number => paddedDigits width (number / 10) ++ [UInt8.ofNat (48 + number % 10)]

def vlogFileName (fileId : Nat) : Result Bytes := do
  rejectIf (fileId > maxVlogFileId) (readCorruption fileId none)
  return [0x44] ++ paddedDigits 6 fileId ++ vlogSuffix

@[simp] theorem paddedDigits_length (width number : Nat) : (paddedDigits width number).length = width := by
  induction width generalizing number with
  | zero => rfl
  | succ width ih => simp [paddedDigits,ih]

theorem digit_toNat (number : Nat) : (UInt8.ofNat (48 + number % 10)).toNat = 48 + number % 10 := by
  simp only [UInt8.toNat_ofNat']
  omega

theorem digitsValue_concat (digits : Bytes) (digit : UInt8) :
    digitsValue (digits ++ [digit]) = digitsValue digits * 10 + (digit.toNat - 48) := by
  simp [digitsValue]

theorem paddedDigits_digits (width number : Nat) : (paddedDigits width number).all isAsciiDigit = true := by
  induction width generalizing number with
  | zero => rfl
  | succ width ih =>
    simp only [paddedDigits,List.all_append,ih,List.all_cons,List.all_nil,Bool.and_true,Bool.true_and,isAsciiDigit,
      digit_toNat,decide_eq_true_eq]
    omega

theorem digitsValue_padded (width number : Nat) : digitsValue (paddedDigits width number) = number % 10 ^ width := by
  induction width generalizing number with
  | zero => simp [paddedDigits,digitsValue,Nat.mod_one]
  | succ width ih =>
    rw [paddedDigits,digitsValue_concat,ih,digit_toNat,Nat.pow_succ',Nat.mod_mul]
    omega

-- Digits are the padded form of their value.
theorem padded_digitsValue {digits : Bytes} (only : digits.all isAsciiDigit = true) :
    paddedDigits digits.length (digitsValue digits) = digits ∧ digitsValue digits < 10 ^ digits.length := by
  induction digits using List.reverseRecOn with
  | nil => exact ⟨rfl,by decide⟩
  | append_singleton digits digit ih =>
    simp only [List.all_append,List.all_cons,List.all_nil,Bool.and_true,Bool.and_eq_true,isAsciiDigit,
      decide_eq_true_eq] at only
    obtain ⟨front,low,high⟩ := only
    obtain ⟨same,bound⟩ := ih (by simpa [isAsciiDigit] using front)
    have whole : digitsValue (digits ++ [digit]) = digitsValue digits * 10 + (digit.toNat - 48) :=
      digitsValue_concat digits digit
    have quotient : digitsValue (digits ++ [digit]) / 10 = digitsValue digits := by omega
    have remainder : 48 + digitsValue (digits ++ [digit]) % 10 = digit.toNat := by omega
    rw [List.length_append,List.length_singleton,paddedDigits,quotient,remainder,same,UInt8.ofNat_toNat]
    refine ⟨rfl,?_⟩
    rw [Nat.pow_succ,whole]
    omega

theorem parseU32_ok {digits : Bytes} {fileId : Nat} (six : digits.length = 6) (only : digits.all isAsciiDigit = true) :
    parseU32 digits = some fileId ↔ digitsValue digits = fileId := by
  have bound := (padded_digitsValue only).2
  rw [six] at bound
  have filled : digits.isEmpty = false := by
    cases digits with
    | nil => cases six
    | cons => rfl
  rw [parseU32,if_neg (by simp only [filled,Bool.false_eq_true,false_or]; omega)]
  exact Option.some_inj

-- Six digits between the fixed parts, and nothing else.
theorem vlogFileName_ok {fileId : Nat} {name : Bytes} :
    vlogFileName fileId = .ok name ↔ fileId ≤ 999999 ∧ ∃ digits, name = [0x44] ++ digits ++ vlogSuffix ∧
      digits.length = 6 ∧ digits.all isAsciiDigit = true ∧ digitsValue digits = fileId := by
  simp only [vlogFileName,maxVlogFileId,bind_ok,exists_unit,rejectIf_ok,pure_ok,Except.ok.injEq]
  constructor
  · rintro ⟨fits,rfl⟩
    refine ⟨by omega,paddedDigits 6 fileId,rfl,paddedDigits_length 6 fileId,paddedDigits_digits 6 fileId,?_⟩
    rw [digitsValue_padded]
    exact Nat.mod_eq_of_lt (by omega)
  · rintro ⟨fits,digits,rfl,six,only,rfl⟩
    refine ⟨by omega,?_⟩
    rw [←six,(padded_digitsValue only).1]

theorem parseVlogFileName_some {name : Bytes} {fileId : Nat} :
    parseVlogFileName name = some fileId ↔ vlogFileName fileId = .ok name := by
  rw [vlogFileName_ok]
  unfold parseVlogFileName
  constructor
  · intro parsed
    split at parsed
    · cases parsed
    · rename_i shape
      simp only [not_or,not_not,Bool.not_eq_false,ne_eq] at shape
      obtain ⟨long,first,last⟩ := shape
      simp only [Option.bind_eq_bind,Option.bind_eq_some_iff,slice?_eq_some] at parsed
      obtain ⟨digits,⟨-,cut⟩,parsed⟩ := parsed
      split at parsed
      · cases parsed
      · rename_i only
        rw [Bool.not_eq_false] at only
        simp only [Option.bind_eq_some_iff] at parsed
        obtain ⟨value,read,parsed⟩ := parsed
        split at parsed
        · rename_i fits
          obtain rfl := Option.some.inj parsed
          obtain ⟨front,rfl⟩ := List.isSuffixOf_iff_suffix.mp last
          obtain ⟨byte,digitsFront,rfl⟩ : ∃ byte rest, front = byte :: rest := by
            cases front with
            | nil => simp [vlogSuffix] at long
            | cons byte rest => exact ⟨byte,rest,rfl⟩
          simp only [List.cons_append,List.head?_cons,Option.some.injEq] at first
          simp only [List.cons_append,List.length_cons,List.length_append,vlogSuffix,List.length_nil] at long
          have six : digitsFront.length = 6 := by omega
          have same : digits = digitsFront := by
            rw [cut,List.cons_append,List.drop_succ_cons,List.drop_zero,←six,List.take_left]
          subst same
          exact ⟨fits,digits,by rw [first]; rfl,six,only,(parseU32_ok six only).mp read⟩
        · cases parsed
  · rintro ⟨fits,digits,rfl,six,only,value⟩
    have cut : slice? ([0x44] ++ digits ++ vlogSuffix) 1 6 = some digits := by
      refine slice?_eq_some.mpr ⟨by simp [vlogSuffix,six],?_⟩
      rw [List.append_assoc,List.singleton_append,List.drop_succ_cons,List.drop_zero,←six,List.take_left]
    rw [if_neg (by simp [six,vlogSuffix])]
    simp only [Option.bind_eq_bind,Option.bind_some,cut,only,Bool.true_eq_false,if_false,
      (parseU32_ok six only).mpr value]
    rw [if_pos fits]

theorem parseDestroyVlogName_some {name : Bytes} {fileId : Nat} :
    parseDestroyVlogName name = some fileId ↔ vlogFileName fileId = .ok name := by
  rw [vlogFileName_ok]
  unfold parseDestroyVlogName
  simp only [Option.bind_eq_bind,Option.bind_eq_some_iff,List.isPrefixOf?_eq_some_iff_append_eq,
    List.isSuffixOf?_eq_some_iff_append_eq]
  constructor
  · rintro ⟨rest,rfl,digits,rfl,parsed⟩
    split at parsed
    · simp at parsed
    · rename_i shape
      simp only [not_or,not_not,Bool.not_eq_false,ne_eq] at shape
      obtain ⟨six,only⟩ := shape
      simp only [Option.filter_eq_some_iff,decide_eq_true_eq] at parsed
      exact ⟨parsed.2,digits,by rw [List.append_assoc],six,only,(parseU32_ok six only).mp parsed.1⟩
  · rintro ⟨fits,digits,rfl,six,only,value⟩
    refine ⟨digits ++ vlogSuffix,by rw [List.append_assoc],digits,rfl,?_⟩
    rw [if_neg (by simp [six,only])]
    simp only [(parseU32_ok six only).mpr value,Option.filter_some,fits,decide_true,
      if_true]

end names

-- What a failed Destroy reports beside the error.
inductive ManagedObject where
  | lock
  | format
  | formatTemporary
  | databaseIdentity
  | indexDirectory
  | vlogDirectory
  | vlogFile (fileId : Nat)
  deriving DecidableEq, Repr

inductive DestroyStage where
  | acquireLock
  | inventory
  | removeFile
  | removeTree
  | syncDirectory
  deriving DecidableEq, Repr

structure DestroyFailureContext where
  failedObject : ManagedObject
  stage : DestroyStage
  partiallyDeleted : Bool
  osCode : Option Int
  deriving DecidableEq, Repr

-- A storage error whose `destroy_failure` is set.
structure DestroyError where
  error : StorageError
  failure : DestroyFailureContext
  deriving DecidableEq, Repr

def destroyFailure (error : StorageError) (object : ManagedObject) (stage : DestroyStage) (partiallyDeleted : Bool) :
    DestroyError :=
  ⟨{error with
      operation := .destroy, protocolStage := .lifecycle, writeOutcome := none, instanceState := none,
      retryAdvice := retryAdviceFor error.kind},
    ⟨object,stage,partiallyDeleted,error.osCode⟩⟩

def destroyLayoutFailure (object : ManagedObject) (stage : DestroyStage) (partiallyDeleted : Bool) : DestroyError :=
  destroyFailure layoutError object stage partiallyDeleted

def destroyCorruptionFailure (object : ManagedObject) (stage : DestroyStage) (partiallyDeleted : Bool) : DestroyError :=
  destroyFailure (metadataError .corruption) object stage partiallyDeleted

section inventories
variable [Crc32c]

-- One turn of the loop of `ManagedInventory::inspect`.
def inspectEntry (format : FormatMetadata) (entry : Bytes × Node) : Result VLogInventoryEntry := do
  let fileId ← orError (parseVlogFileName entry.1) layoutError
  match entry.2 with
  | .file contents => inspectFile format (fileId,contents)
  | _ => .error layoutError

def sortByFileId (files : List VLogInventoryEntry) : List VLogInventoryEntry :=
  files.mergeSort (fun one other => decide (one.fileId ≤ other.fileId))

def inspectListing (format : FormatMetadata) (entries : List (Bytes × Node)) : Result ManagedInventory := do
  let vlogFiles ← entries.mapM (inspectEntry format)
  return ⟨sortByFileId vlogFiles⟩

-- The files of a log as a listing of their directory.
def listingOf (files : Directory) : List (Bytes × Node) :=
  files.toList.map (fun file => ([0x44] ++ paddedDigits 6 file.1 ++ vlogSuffix,.file file.2))

theorem inspectEntry_named {format : FormatMetadata} {fileId : Nat} {contents : Bytes} (fits : fileId ≤ 999999) :
    inspectEntry format ([0x44] ++ paddedDigits 6 fileId ++ vlogSuffix,.file contents) =
      inspectFile format (fileId,contents) := by
  have named : vlogFileName fileId = .ok ([0x44] ++ paddedDigits 6 fileId ++ vlogSuffix) := by
    rw [vlogFileName,rejectIf_false (by simp only [maxVlogFileId]; omega),ok_bind,pure_ok]
  unfold inspectEntry
  rw [parseVlogFileName_some.mpr named,orError,ok_bind]

-- The inventory recovery works with is the one of the listing.
theorem inspectListing_listingOf {format : FormatMetadata} {files : Directory}
    (fits : ∀ (fileId : Nat) (contents : Bytes), files[fileId]? = some contents → fileId ≤ 999999) :
    inspectListing format (listingOf files) = inspectFiles format files := by
  have same : (listingOf files).mapM (inspectEntry format) = files.toList.mapM (inspectFile format) := by
    have each : ∀ list : List (Nat × Bytes), (∀ file ∈ list, file.1 ≤ 999999) →
        (list.map (fun file => (([0x44] ++ paddedDigits 6 file.1 ++ vlogSuffix : Bytes),Node.file file.2))).mapM
          (inspectEntry format) = list.mapM (inspectFile format) := by
      intro list
      induction list with
      | nil => exact fun _ => rfl
      | cons first rest ih =>
        intro bounded
        rw [List.map_cons,List.mapM_cons,List.mapM_cons,inspectEntry_named (bounded first List.mem_cons_self),
          ih (fun file member => bounded file (List.mem_cons_of_mem _ member))]
    exact each _ (fun file member => fits file.1 file.2 (Std.ExtTreeMap.mem_toList_iff_getElem?_eq_some.mp member))
  unfold inspectListing
  rw [same]
  cases mapped : files.toList.mapM (inspectFile format) with
  | error error => rw [inspectFiles,mapped]; rfl
  | ok entries =>
    have inspected : inspectFiles format files = .ok ⟨entries⟩ := by rw [inspectFiles,mapped]; rfl
    rw [inspected,ok_bind,pure_ok]
    have listed := (inspectFiles_lists inspected).listed
    simp only at listed
    have sorted : sortByFileId entries = entries := by
      refine List.mergeSort_of_pairwise ?_
      rw [listed,List.pairwise_map]
      refine (Std.ExtTreeMap.ordered_keys_toList).imp ?_
      intro one other before
      rw [decide_eq_true_eq]
      exact Nat.le_of_lt (Nat.compare_eq_lt.mp before)
    rw [sorted]

def destroyVlogFile (format : FormatMetadata) (fileId : Nat) (contents : Bytes) :
    Except DestroyError VLogInventoryEntry := do
  rejectIf (contents.length > maxVlogFileSize ∨ contents.length < pageHeaderEncodedLen + fileHeaderEncodedLen)
    (destroyCorruptionFailure (.vlogFile fileId) .inventory false)
  let encodedPage ← orError (slice? contents 0 pageHeaderEncodedLen)
    (destroyFailure (readCorruption fileId none) (.vlogFile fileId) .inventory false)
  let page ← (PageHeader.decode encodedPage).mapError
    (fun error => destroyFailure error (.vlogFile fileId) .inventory false)
  let encodedFile ← orError (slice? contents pageHeaderEncodedLen fileHeaderEncodedLen)
    (destroyFailure (readCorruption fileId none) (.vlogFile fileId) .inventory false)
  let header ← (VLogFileHeader.decode encodedFile).mapError
    (fun error => destroyFailure error (.vlogFile fileId) .inventory false)
  rejectIf (page.fileId ≠ fileId ∨ page.pageNo ≠ 0 ∨ header.fileId ≠ fileId ∨
    header.databaseUuid ≠ format.databaseUuid ∨ header.formatVersion ≠ format.formatVersion)
    (destroyCorruptionFailure (.vlogFile fileId) .inventory false)
  return ⟨fileId,contents.length⟩

-- One turn of the loop of `inventory_vlog_for_destroy`.
def destroyVlogEntry (format : FormatMetadata) (entry : Bytes × Node) : Except DestroyError VLogInventoryEntry := do
  let fileId ← orError (parseDestroyVlogName entry.1) (destroyLayoutFailure .vlogDirectory .inventory false)
  match entry.2 with
  | .file contents => destroyVlogFile format fileId contents
  | _ => .error (destroyLayoutFailure (.vlogFile fileId) .inventory false)

def inventoryVlogForDestroy (format : FormatMetadata) (entries : List (Bytes × Node)) :
    Except DestroyError (List VLogInventoryEntry) := do
  let files ← entries.mapM (destroyVlogEntry format)
  return sortByFileId files

-- The two checks of one file differ below the two headers and nowhere else.
theorem destroyVlogFile_of_inspectFile {format : FormatMetadata} {fileId : Nat} {contents : Bytes}
    {found : VLogInventoryEntry} (inspected : inspectFile format (fileId,contents) = .ok found) :
    destroyVlogFile format fileId contents =
      if contents.length < 64 then .error (destroyCorruptionFailure (.vlogFile fileId) .inventory false)
      else .ok found := by
  obtain ⟨rfl,-,sized,identity⟩ := inspectFile_ok inspected
  simp only at sized identity
  unfold destroyVlogFile
  simp only [maxVlogFileSize,pageHeaderEncodedLen,fileHeaderEncodedLen]
  split
  · rename_i short
    rw [rejectIf,if_pos (Or.inr short),error_bind]
  · rename_i long
    have valid := identity (Nat.le_of_not_lt long)
    simp only [validateFileIdentity,pageHeaderEncodedLen,fileHeaderEncodedLen,bind_ok,orError_ok,mapError_ok,rejectIf_ok,
      not_or,not_not,ne_eq] at valid
    obtain ⟨encodedPage,first,encodedFile,second,page,pageRead,header,headerRead,one,two,three,four,five,-,-⟩ := valid
    rw [rejectIf_false (by omega),ok_bind,first,orError,ok_bind,pageRead,Except.mapError,ok_bind,second,orError,ok_bind,
      headerRead,Except.mapError,ok_bind,rejectIf_false (by simp [one,two,three,four,five]),ok_bind,pure_ok]

omit [Crc32c] in
theorem parsers_agree (name : Bytes) : parseDestroyVlogName name = parseVlogFileName name := by
  refine Option.ext ?_
  intro fileId
  rw [parseDestroyVlogName_some,parseVlogFileName_some]

theorem destroyVlogEntry_of_inspectEntry {format : FormatMetadata} {entry : Bytes × Node} {found : VLogInventoryEntry}
    (inspected : inspectEntry format entry = .ok found) :
    destroyVlogEntry format entry =
      if found.len < 64 then .error (destroyCorruptionFailure (.vlogFile found.fileId) .inventory false)
      else .ok found := by
  simp only [inspectEntry,bind_ok,orError_ok] at inspected
  obtain ⟨fileId,parsed,inspected⟩ := inspected
  unfold destroyVlogEntry
  rw [parsers_agree,parsed,orError,ok_bind]
  cases node : entry.2 with
  | file contents =>
    rw [node] at inspected
    simp only at inspected
    obtain ⟨rfl,-⟩ := inspectFile_ok inspected
    exact destroyVlogFile_of_inspectFile inspected
  | directory entries => rw [node] at inspected; cases inspected
  | symlink => rw [node] at inspected; cases inspected
  | other => rw [node] at inspected; cases inspected

-- The loop over a listing that Open accepts: it goes through, or stops at the first short file.
theorem destroyVlogEntries_of_inspect {format : FormatMetadata} {entries : List (Bytes × Node)}
    {files : List VLogInventoryEntry} (inspected : entries.mapM (inspectEntry format) = .ok files) :
    ((∀ file ∈ files, 64 ≤ file.len) → entries.mapM (destroyVlogEntry format) = .ok files) ∧
      ∀ file ∈ files, file.len < 64 → ∃ short ∈ files, short.len < 64 ∧ entries.mapM (destroyVlogEntry format) =
        .error (destroyCorruptionFailure (.vlogFile short.fileId) .inventory false) := by
  induction entries generalizing files with
  | nil =>
    obtain rfl := mapM_ok_nil inspected
    exact ⟨fun _ => rfl,fun _ member => by cases member⟩
  | cons entry rest ih =>
    obtain ⟨first,later,here,there,rfl⟩ := mapM_ok_cons inspected
    obtain ⟨through,stops⟩ := ih there
    have turn := destroyVlogEntry_of_inspectEntry here
    refine ⟨?_,?_⟩
    · intro long
      have head := long first List.mem_cons_self
      rw [if_neg (Nat.not_lt.mpr head)] at turn
      rw [List.mapM_cons,turn,ok_bind,through (fun file member => long file (List.mem_cons_of_mem _ member)),ok_bind,
        pure_ok]
    · intro file member short
      by_cases head : first.len < 64
      · rw [if_pos head] at turn
        exact ⟨first,List.mem_cons_self,head,by rw [List.mapM_cons,turn,error_bind]⟩
      · rw [if_neg head] at turn
        rcases List.mem_cons.mp member with rfl | member
        · exact absurd short head
        · obtain ⟨found,among,below,failed⟩ := stops file member short
          exact ⟨found,List.mem_cons_of_mem _ among,below,by rw [List.mapM_cons,turn,ok_bind,failed,error_bind]⟩

-- Where every file holds its two headers both inventories give the same; where one does not,
-- Destroy names a short file. The names are those `vlog_file_name` makes.
theorem destroy_inventory_agrees {format : FormatMetadata} {entries : List (Bytes × Node)} {inventory : ManagedInventory}
    (inspected : inspectListing format entries = .ok inventory) :
    (inventoryVlogForDestroy format entries = .ok inventory.vlogFiles ↔ ∀ file ∈ inventory.vlogFiles, 64 ≤ file.len) ∧
    ((∃ file ∈ inventory.vlogFiles, file.len < 64) → ∃ file ∈ inventory.vlogFiles, file.len < 64 ∧
      inventoryVlogForDestroy format entries = .error (destroyCorruptionFailure (.vlogFile file.fileId) .inventory false)) ∧
    ∀ (name : Bytes) (fileId : Nat), (parseVlogFileName name = some fileId ↔ vlogFileName fileId = .ok name) ∧
      (parseDestroyVlogName name = some fileId ↔ vlogFileName fileId = .ok name) := by
  simp only [inspectListing,bind_ok,pure_ok,Except.ok.injEq] at inspected
  obtain ⟨files,mapped,rfl⟩ := inspected
  obtain ⟨through,stops⟩ := destroyVlogEntries_of_inspect mapped
  have same : ∀ file, file ∈ sortByFileId files ↔ file ∈ files := fun file => List.mem_mergeSort
  have refused : ∀ file ∈ files, file.len < 64 → ∃ short ∈ sortByFileId files, short.len < 64 ∧
      inventoryVlogForDestroy format entries = .error (destroyCorruptionFailure (.vlogFile short.fileId) .inventory false) := by
    intro file member short
    obtain ⟨found,among,below,failed⟩ := stops file member short
    exact ⟨found,(same found).mpr among,below,by rw [inventoryVlogForDestroy,failed,error_bind]⟩
  refine ⟨⟨?_,?_⟩,?_,fun name fileId => ⟨parseVlogFileName_some,parseDestroyVlogName_some⟩⟩
  · intro accepted file member
    refine Nat.le_of_not_lt ?_
    intro short
    obtain ⟨_,-,-,failed⟩ := refused file ((same file).mp member) short
    rw [failed] at accepted
    cases accepted
  · intro long
    rw [inventoryVlogForDestroy,through (fun file member => long file ((same file).mpr member)),ok_bind,pure_ok]
  · rintro ⟨file,member,short⟩
    exact refused file ((same file).mp member) short

end inventories

-- Open counts a file that was just created, Destroy refuses it.
theorem destroy_refuses_empty_file :
    let format : FormatMetadata := ⟨0,⟨List.replicate 16 1,rfl⟩,65536⟩
    let entries : List (Bytes × Node) := [([0x44,0x30,0x30,0x30,0x30,0x30,0x30,0x2E,0x64,0x61,0x74,0x61],.file [])]
    @inspectListing castagnoli format entries = .ok ⟨[⟨0,0⟩]⟩ ∧
      @inventoryVlogForDestroy castagnoli format entries =
        .error (destroyCorruptionFailure (.vlogFile 0) .inventory false) := by
  refine ⟨?_,rfl⟩
  have inspected : [(([0x44,0x30,0x30,0x30,0x30,0x30,0x30,0x2E,0x64,0x61,0x74,0x61] : Bytes),Node.file [])].mapM
      (@inspectEntry castagnoli ⟨0,⟨List.replicate 16 1,rfl⟩,65536⟩) = .ok [⟨0,0⟩] := rfl
  unfold inspectListing
  rw [inspected,ok_bind,pure_ok,sortByFileId,List.mergeSort_singleton]

theorem destroy_inventory_agrees_first :
    ∃ name contents, vlogFileName 0 = .ok name ∧
      @inspectListing castagnoli ⟨0,⟨List.replicate 16 1,rfl⟩,65536⟩ [(name,.file contents)] = .ok ⟨[⟨0,64⟩]⟩ ∧
      @inventoryVlogForDestroy castagnoli ⟨0,⟨List.replicate 16 1,rfl⟩,65536⟩ [(name,.file contents)] = .ok [⟨0,64⟩] := by
  let format : FormatMetadata := ⟨0,⟨List.replicate 16 1,rfl⟩,65536⟩
  let name : Bytes := [0x44,0x30,0x30,0x30,0x30,0x30,0x30,0x2E,0x64,0x61,0x74,0x61]
  let contents : Bytes := ((@PageHeader.encode castagnoli ⟨0,0⟩).toOption.getD []) ++
    ((@VLogFileHeader.encode castagnoli (.new format.databaseUuid 0)).toOption.getD [])
  have valid : (@inspectEntry castagnoli format (name,.file contents)).toOption = some ⟨0,64⟩ := by decide +kernel
  have entry : @inspectEntry castagnoli format (name,.file contents) = .ok ⟨0,64⟩ := by
    cases found : @inspectEntry castagnoli format (name,.file contents) with
    | error error => rw [found] at valid; cases valid
    | ok file => rw [found] at valid; rw [Option.some.inj valid]
  have inspected : @inspectListing castagnoli format [(name,.file contents)] = .ok ⟨[⟨0,64⟩]⟩ := by
    unfold inspectListing
    rw [List.mapM_cons,entry,ok_bind,List.mapM_nil,pure_ok,ok_bind,pure_ok,ok_bind,pure_ok,sortByFileId,
      List.mergeSort_singleton]
  refine ⟨name,contents,rfl,inspected,(@destroy_inventory_agrees castagnoli _ _ _ inspected).1.mpr ?_⟩
  intro file member
  rw [List.mem_singleton.mp member]

end ExpirKv
