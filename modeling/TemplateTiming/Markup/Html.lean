import TemplateTiming.Markup.Document
import TemplateTiming.Text.Quoted
import TemplateTiming.FileConfig.Basic

/-! The HTML of a document. Around the body stands a fixed frame that mail programs need; within it texts, raw
content and plain elements appear as they were written. A component becomes the HTML element that does its work
and keeps its attributes, with those that its class or its name has by default. -/

namespace TemplateTiming.Markup.Html

def chars (s : String) : List Char := s.toList

def attributeText (name : List Char) : Option (List Char) → List Char
  | some value => ' ' :: name ++ ['='] ++ (Quoted.text (String.ofList value)).toList
  | none => ' ' :: name

def attributesText (all : Attributes) : List Char := all.flatMap fun (name, value) => attributeText name value

/-- An element with its content. -/
def element (name : List Char) (all : Attributes) (content : List Char) : List Char :=
  '<' :: name ++ attributesText all ++ ['>'] ++ content ++ ['<', '/'] ++ name ++ ['>']

/-- An element that has no content. -/
def voidElement (name : List Char) (all : Attributes) : List Char :=
  '<' :: name ++ attributesText all ++ [' ', '/', '>']

/-- The attributes without those of the given names. -/
def without (all : Attributes) (names : List String) : Attributes :=
  all.filter fun (name, _) => !names.contains (String.ofList name)

/-- The networks that have an icon. -/
def networks : List String :=
  ["dribbble", "facebook", "github", "google", "instagram", "linkedin", "medium", "pinterest", "snapchat",
    "soundcloud", "tumblr", "twitter", "vimeo", "web", "x", "xing", "youtube"]

/-- The file of a network's icon. A name may end in `-noshare`, which has no influence on the icon. Two networks
have changed their names. -/
def iconFile? (network : List Char) : Option (List Char) :=
  let suffix := chars "-noshare"
  let name := if suffix.isSuffixOf network then network.take (network.length - suffix.length) else network
  if !networks.contains (String.ofList name) then none
  else if name = ['x'] then some (chars "twitter-x.png")
  else if name = chars "google" then some (chars "google-plus.png")
  else some (name ++ chars ".png")

/-- A place on a host. -/
def address (scheme host place : String) : String := scheme ++ "://" ++ host ++ "/" ++ place

/-- Where the icons are, unless the settings name another place. -/
def defaultIconOrigin : String := address "https" "www.mailjet.com" "images/theme/v1/icons/ico-social/"

/-- The address of the icon of a social element: its own, or that of its network. -/
def icon? (settings : RenderSettings) (all : Attributes) : Option (List Char) :=
  Attributes.value? all "src" <|>
    ((Attributes.value? all "name").bind iconFile?).map (chars (settings.socialIconOrigin.getD defaultIconOrigin) ++ ·)

/-- A line whose colour is given once for most mail programs and once for those that need a table. -/
def divider (all : Attributes) : List Char :=
  let colour := (Attributes.value? all "border-color").getD (chars "#000000")
  let style := [(chars "style", some (chars "border-top:solid 4px " ++ colour ++ [';']))]
  element ['p'] (without all ["border-color"] ++ style) []
    ++ chars "<!--[if mso | IE]>" ++ element (chars "table") style [] ++ chars "<![endif]-->"

def socialElement (settings : RenderSettings) (all : Attributes) (content : List Char) : List Char :=
  let source := (icon? settings all).toList.map fun icon => (chars "src", some icon)
  element ['a'] (without all ["name", "src"]) (voidElement (chars "img") source)
    ++ element (chars "span") [] content

/-- What the parts of a body depend on. -/
structure Context where
  settings : RenderSettings
  defaults : List Default
  /-- What is put in front of the addresses of navigation links. -/
  base : List Char

/-- The attributes of a component, and behind them those that only its classes or its name have. -/
def withDefaults (ctx : Context) (name : List Char) (own : Attributes) : Attributes :=
  let meant := ctx.defaults.filter fun d =>
    d.audience = .named name || (Attributes.classes own).any fun c => d.audience = .ofClass c
  let names := (meant.flatMap (·.attributes.map (·.1))).eraseDups.filter fun n => n ≠ chars "name"
  own ++ names.filterMap fun n =>
    if (Attributes.value? own (String.ofList n)).isSome then none
    else (Default.resolve? meant name own (String.ofList n)).map fun v => (n, some v)

/-- The links of a navigation begin with its address. -/
def navigationLink (ctx : Context) (all : Attributes) (content : List Char) : List Char :=
  let target := (Attributes.value? all "href").toList.map fun href => (chars "href", some (ctx.base ++ href))
  element ['a'] (without all ["href"] ++ target) content

def component (ctx : Context) (all : Attributes) (content : List Char) : Component → List Char
  | .block => element (chars "div") all content
  | .link => element ['a'] all content
  | .image => voidElement (chars "img") all
  | .divider => divider all
  | .navigation => element (chars "div") (without all ["base-url"]) content
  | .navigationLink => navigationLink ctx all content
  | .socialElement => socialElement ctx.settings all content

/-- The context for the content of a component. -/
def Context.within (ctx : Context) (c : Component) (all : Attributes) : Context :=
  if c = .navigation then { ctx with base := (Attributes.value? all "base-url").getD [] } else ctx

mutual

def part (ctx : Context) : Part → List Char
  | .text s => s
  | .comment s => if ctx.settings.disableComments = some true then [] else chars "<!--" ++ s ++ chars "-->"
  | .raw content => parts ctx content
  | .component c name own content =>
    let all := withDefaults ctx name own
    component ctx all (parts (ctx.within c all) content) c
  | .plain name all content =>
    if isVoid name then voidElement name all else element name all (parts ctx content)

def parts (ctx : Context) : List Part → List Char
  | [] => []
  | p :: rest => part ctx p ++ parts ctx rest

end

/-- What stands between the title and the document's own styles. -/
def frame : List Char := chars (
  "<!--[if !mso]><!--><meta http-equiv=\"X-UA-Compatible\" content=\"IE=edge\"><!--<![endif]-->" ++
  "<meta http-equiv=\"Content-Type\" content=\"text/html; charset=UTF-8\">" ++
  "<meta name=\"viewport\" content=\"width=device-width, initial-scale=1\">\n" ++
  "<style type=\"text/css\">\n" ++
  "#outlook a \x7b padding: 0; \x7d\n" ++
  "body \x7b margin: 0; padding: 0; -webkit-text-size-adjust: 100%; -ms-text-size-adjust: 100%; \x7d\n" ++
  "table, td \x7b border-collapse: collapse; mso-table-lspace: 0pt; mso-table-rspace: 0pt; \x7d\n" ++
  "img \x7b border: 0; height: auto; line-height: 100%; outline: none; text-decoration: none; " ++
  "-ms-interpolation-mode: bicubic; \x7d\n" ++
  "p \x7b display: block; margin: 13px 0; \x7d\n" ++
  "</style>\n" ++
  "<!--[if mso]>\n" ++
  "<noscript>\n" ++
  "<xml>\n" ++
  "<o:OfficeDocumentSettings>\n" ++
  "  <o:AllowPNG/>\n" ++
  "  <o:PixelsPerInch>96</o:PixelsPerInch>\n" ++
  "</o:OfficeDocumentSettings>\n" ++
  "</xml>\n" ++
  "</noscript>\n" ++
  "<![endif]-->\n" ++
  "<!--[if lte mso 11]>\n" ++
  "<style type=\"text/css\">\n" ++
  ".mj-outlook-group-fix \x7b width:100% !important; \x7d\n" ++
  "</style>\n" ++
  "<![endif]-->\n")

/-- The text that a mail program shows beside the subject. -/
def preview : Option (List Char) → List Char
  | none => []
  | some s =>
    element (chars "div") [(chars "style", some (chars ("display:none;font-size:1px;color:#ffffff;" ++
      "line-height:1px;max-height:0px;max-width:0px;opacity:0;overflow:hidden;")))] s

/-- Language and direction of the text. -/
def locale (d : Document) : Attributes :=
  [(chars "lang", some (d.lang.getD (chars "und"))), (chars "dir", some (d.dir.getD (chars "auto")))]

/-- An attribute whose value appears as it is. -/
def literal (name : String) (value : List Char) : List Char :=
  ' ' :: chars name ++ ['=', '"'] ++ value ++ ['"']

def body (ctx : Context) (d : Document) : List Char :=
  match d.body with
  | none => chars "<body></body>"
  | some b =>
    let background := match b.value? d.head "background-color" with
      | some colour => chars "background-color:" ++ colour ++ [';']
      | none => []
    let cssClass := (b.value? d.head "css-class").toList.map fun names => (chars "class", some names)
    let style := if background.isEmpty then [] else literal "style" background
    chars "<body" ++ literal "style" (chars "word-spacing:normal;" ++ background) ++ ['>']
      ++ preview d.head.preview
      ++ chars "<div" ++ attributesText (cssClass ++ locale d) ++ style ++ ['>'] ++ parts ctx b.parts
      ++ chars "</div></body>"

def document (settings : RenderSettings) (d : Document) : List Char :=
  let ctx : Context := ⟨settings, d.head.defaults, []⟩
  chars "<!doctype html><html" ++ attributesText (locale d)
    ++ literal "xmlns" (chars (address "http" "www.w3.org" "1999/xhtml"))
    ++ literal "xmlns:v" (chars "urn:schemas-microsoft-com:vml")
    ++ literal "xmlns:o" (chars "urn:schemas-microsoft-com:office:office")
    ++ chars "><head>" ++ element (chars "title") [] (d.head.title.getD []) ++ frame
    ++ chars "<style type=\"text/css\">" ++ d.head.styles.flatMap Text.trim ++ chars "</style>"
    ++ parts ctx d.head.raw ++ chars "</head>" ++ body ctx d ++ chars "</html>"

end TemplateTiming.Markup.Html
