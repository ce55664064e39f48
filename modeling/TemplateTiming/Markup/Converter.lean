import TemplateTiming.Markup.Html
import TemplateTiming.Engine

/-! The converter from MJML to HTML: a routine that reads a text and writes the document, with its failures turned
into errors. It keeps no state: every call reads the whole text anew, so equal texts give equal results. A text
that cannot be read is a parse error; warnings of a text that can be read are logged. -/

namespace TemplateTiming.Markup

/-- A routine for documents of the type `δ`. Reading gives the document and the number of warnings; both steps may
fail, with a message. -/
structure Routine (δ : Type) where
  read : String → Except String (δ × Nat)
  write : RenderSettings → δ → Except String String

namespace Routine

variable {δ : Type}

def convert (r : Routine δ) (settings : RenderSettings) (text : String) : Conversion :=
  match r.read text with
  | .error message => ⟨.error (.parse message), []⟩
  | .ok (d, warnings) =>
    ⟨(r.write settings d).mapError .render, if warnings = 0 then [] else [.parseWarnings warnings]⟩

def converter (r : Routine δ) (settings : RenderSettings) : Converter Unit :=
  ⟨"mrml", fun s text => (r.convert settings text, s)⟩

end Routine

/-- MJML to HTML. What can be read can be written. -/
def routine : Routine Document where
  read text := (Document.ofText text.toList).mapError (·.message)
  write settings d := .ok (String.ofList (Html.document settings d))

def convert (settings : RenderSettings) (text : String) : Conversion := routine.convert settings text

def converter (settings : RenderSettings) : Converter Unit := routine.converter settings

end TemplateTiming.Markup
