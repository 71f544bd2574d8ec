import ExpirKv.Commit.LiveRuns

namespace ExpirKv
open VLogGeometry Storage ValueLog CommitCoordinator

-- The error says that nothing of the write is there.
def StorageError.Refuses (error : StorageError) : Prop := error.writeOutcome = some .notCommitted

section preparing
variable {operation : Operation}

variable [Crc32c] {write : ValidatedWrite} {around : Surroundings} {c : CommitCoordinator}

end preparing

section writing
variable [Crc32c] {writer : ValueLogWriter} {commitSeq : Nat}

end writing

section verdicts
variable [Crc32c] {c next : CommitCoordinator} {halt : Halt} {request : WriteRequest} {around : Surroundings}

end verdicts

end ExpirKv
