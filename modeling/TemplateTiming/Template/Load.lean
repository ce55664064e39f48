import TemplateTiming.Template
import TemplateTiming.Validation

/-! Loading a template. Its path is made absolute without a look at any file, its bytes are read, and its text is
what the bytes say, with U+FFFD for what is not UTF-8; so a file that can be read always yields a template. -/

namespace TemplateTiming.Template

/-- The absolute path of a template. -/
def resolve (workingDir p : Path) : Except Error Path := do
  Validation.path "input" p
  .ok (Path.absolute workingDir p)

def load (workingDir : Path) (fileContent : Path → Except IoError (List UInt8)) (p : Path) :
    Except Error Template := do
  let path ← resolve workingDir p
  let octets ← (fileContent path).mapError (.templateRead path)
  .ok ⟨path, String.ofList (Utf8.lossy octets)⟩

end TemplateTiming.Template
