import TemplateTiming.Markup.Tree

/-! The components of a body: under which names they go, what may stand in them, and what they are shown as. Some
components have no meaning but within another one. -/

namespace TemplateTiming.Markup

/-- What a component is shown as. -/
inductive Component where
  | block
  | link
  | image
  | divider
  | navigation
  | navigationLink
  | socialElement
  deriving DecidableEq, Repr

/-- What may stand at a place of a body. -/
inductive Place where
  /-- All that a body can hold. -/
  | anything
  /-- Plain elements, none of which is a component. -/
  | raw
  /-- The components that may stand anywhere, texts and comments. -/
  | included
  /-- Components of certain names, and perhaps comments. -/
  | only (names : List String) (comments : Bool)
  deriving DecidableEq, Repr

namespace Component

/-- The components that may stand anywhere in a body. -/
def ofName? (name : String) : Option Component :=
  if ["mj-accordion", "mj-carousel", "mj-column", "mj-group", "mj-hero", "mj-section", "mj-social", "mj-spacer",
      "mj-table", "mj-text", "mj-wrapper"].contains name then some .block
  else if name = "mj-navbar" then some .navigation
  else if name = "mj-button" then some .link
  else if name = "mj-image" then some .image
  else if name = "mj-divider" then some .divider
  else none

/-- The components that belong into another one. -/
def partOfName? (name : String) : Option Component :=
  if ["mj-accordion-element", "mj-accordion-title", "mj-accordion-text"].contains name then some .block
  else if name = "mj-navbar-link" then some .navigationLink
  else if name = "mj-carousel-image" then some .image
  else if name = "mj-social-element" then some .socialElement
  else none

end Component

namespace Place

/-- The component that a name stands for at this place. -/
def component? (p : Place) (name : String) : Option Component :=
  match p with
  | .anything | .included => Component.ofName? name
  | .only _ _ => Component.partOfName? name
  | .raw => none

/-- What may stand in a component, unless it has no content. -/
def inComponent? (name : String) : Option Place :=
  if ["mj-carousel-image", "mj-divider", "mj-image", "mj-spacer"].contains name then none
  else if name = "mj-accordion" then some (.only ["mj-accordion-element"] true)
  else if name = "mj-accordion-element" then some (.only ["mj-accordion-title", "mj-accordion-text"] false)
  else if name = "mj-carousel" then some (.only ["mj-carousel-image"] true)
  else if name = "mj-navbar" then some (.only ["mj-navbar-link"] true)
  else if name = "mj-social" then some (.only ["mj-social-element"] true)
  else some .anything

end Place

end TemplateTiming.Markup
