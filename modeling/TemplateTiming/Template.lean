import TemplateTiming.Path

/-! A template: its text, loaded once and converted many times, and the path it came from. -/

namespace TemplateTiming

structure Template where
  path : Path
  content : String
  deriving DecidableEq, Repr

namespace Template

/-- The size of the text in bytes of UTF-8. -/
def size (t : Template) : Nat := Utf8.size t.content.toList

def isEmpty (t : Template) : Bool := t.content.toList.isEmpty

end Template

end TemplateTiming
