import Corewise.CoreSignature.Error
import Corewise.Text.Excerpt
/-!
Framed reports of errors in signature texts.
-/

namespace Corewise.CoreSignature.ParseError

/-- The text with the place of the error marked. Places are cut off at the length of the text in
bytes. -/
def report (e : ParseError) : String :=
  let size := e.text.utf8ByteSize
  let start := min e.start size
  (Text.Excerpt.mk "signature" e.text start (max start (min e.stop size)) e.detail).render

end Corewise.CoreSignature.ParseError
