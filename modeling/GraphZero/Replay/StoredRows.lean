import GraphZero.Foundation.Sequences
import GraphZero.Replay.Contents

/-!
# Stored rows

The legal actions of a row are enumerated at the row's state, so storage keeps
that state once and a bare hash for each action.  The policy is stored in the
precision of the batch wire.
-/

namespace GraphZero.Replay.Contents

open GraphZero.Engine
open GraphZero.Features
open GraphZero.Foundation

namespace StoredLegalAction

end StoredLegalAction

namespace StoredReplayRow

end StoredReplayRow

section Actions

variable {state : ReplayGraphContext} {action : PortableSearchActionRef}
  {actions : List PortableSearchActionRef}

end Actions

namespace ReplayRow

/-- The row with its policy in the stored precision. -/
def rounded (row : ReplayRow) : ReplayRow :=
  { row with policyTarget := row.policyTarget.map F32.rounded }

end ReplayRow

end GraphZero.Replay.Contents
