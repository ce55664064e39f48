import TemplateTiming.Proofs.FileConfig

/-! Names in small or capital letters. Texts are compared with the names of formats and log levels after the letters
A to Z have been made small, which amounts to comparing letter by letter. -/

namespace TemplateTiming

namespace Text

/-- The character itself, or its small letter. -/
def SameLetter (c d : Char) : Prop := c = d ∨ 'A' ≤ c ∧ c ≤ 'Z' ∧ d.toNat = c.toNat + 32

/-- The text is the name, where any letters from A to Z may be capitals. -/
def Spells (text name : String) : Prop := List.Forall₂ SameLetter text.toList name.toList

theorem toLower_eq_iff {d : Char} (hd : ¬('A' ≤ d ∧ d ≤ 'Z')) (c : Char) : c.toLower = d ↔ SameLetter c d := by
  unfold SameLetter Char.toLower
  split_ifs with hc
  · have hrange : 'A' ≤ c ∧ c ≤ 'Z' := hc
    have hsum : (c.val + ('a'.val - 'A'.val)).toNat = c.toNat + 32 := by
      have hhigh : c.val.toNat ≤ 90 := UInt32.le_iff_toNat_le.mp hc.2
      rw [UInt32.toNat_add, show ('a'.val - 'A'.val).toNat = 32 from rfl]
      exact Nat.mod_eq_of_lt (by omega)
    constructor
    · rintro rfl
      exact Or.inr ⟨hrange.1, hrange.2, hsum⟩
    · rintro (rfl | ⟨_, _, hcode⟩)
      · exact absurd hrange hd
      · exact Char.toNat_inj.mp (hsum.trans hcode.symm)
  · constructor
    · exact Or.inl
    · rintro (rfl | ⟨hlow, hhigh, _⟩)
      · rfl
      · exact absurd ⟨hlow, hhigh⟩ hc

theorem asciiLower_eq_iff {name : String} (hname : ∀ d ∈ name.toList, ¬('A' ≤ d ∧ d ≤ 'Z')) (text : String) :
    asciiLower text = name ↔ Spells text name := by
  have hletters : ∀ cs ds : List Char, (∀ d ∈ ds, ¬('A' ≤ d ∧ d ≤ 'Z')) →
      (cs.map Char.toLower = ds ↔ List.Forall₂ SameLetter cs ds) := by
    intro cs ds hds
    induction cs generalizing ds with
    | nil => cases ds <;> simp
    | cons c cs ih =>
        cases ds with
        | nil => simp
        | cons d ds =>
            rw [List.map_cons, List.cons.injEq, List.forall₂_cons,
              toLower_eq_iff (hds d List.mem_cons_self), ih ds fun d hd => hds d (List.mem_cons_of_mem _ hd)]
  rw [Spells, ← hletters text.toList name.toList hname, asciiLower, ← String.toList_inj, String.toList_ofList]

/-- A text that is one of some names, which are written in small letters. -/
theorem asciiLower_mem_iff {names : List String} (hnames : ∀ name ∈ names, ∀ d ∈ name.toList, ¬('A' ≤ d ∧ d ≤ 'Z'))
    (text : String) : asciiLower text ∈ names ↔ ∃ name ∈ names, Spells text name := by
  constructor
  · intro h
    exact ⟨_, h, (asciiLower_eq_iff (hnames _ h) text).mp rfl⟩
  · rintro ⟨name, hname, hspells⟩
    rw [(asciiLower_eq_iff (hnames name hname) text).mpr hspells]
    exact hname

end Text

namespace ReportFormat

/-- The text is the name of a format. -/
def Named (text : String) : Prop := ∃ format : ReportFormat, Text.Spells text format.name

/-- The error about a text that is no format. -/
def unknown (text : String) : Error := .invalidValue "format" (asciiLower text) "Valid formats: text, json"

theorem parse_eq_ok_iff_spells (text : String) (format : ReportFormat) :
    parse text = .ok format ↔ Text.Spells text format.name := by
  rw [parse_eq_ok_iff]
  cases format
  · exact Text.asciiLower_eq_iff (by simp [name]) text
  · exact Text.asciiLower_eq_iff (by simp [name]) text

theorem named_iff (text : String) : Named text ↔ ∃ format, parse text = .ok format := by
  simp only [Named, parse_eq_ok_iff_spells]

theorem named_iff_spells (text : String) : Named text ↔ Text.Spells text "text" ∨ Text.Spells text "json" := by
  constructor
  · rintro ⟨_ | _, hspells⟩
    · exact Or.inl hspells
    · exact Or.inr hspells
  · rintro (hspells | hspells)
    · exact ⟨.text, hspells⟩
    · exact ⟨.json, hspells⟩

theorem parse_of_not_named {text : String} (h : ¬Named text) : parse text = .error (unknown text) := by
  have hother : ∀ format : ReportFormat, asciiLower text ≠ format.name :=
    fun format heq => h ((named_iff text).mpr ⟨format, (parse_eq_ok_iff text format).mpr heq⟩)
  have htext : asciiLower text ≠ "text" := hother .text
  have hjson : asciiLower text ≠ "json" := hother .json
  simp only [parse]
  rw [if_neg htext, if_neg hjson]
  rfl

end ReportFormat

end TemplateTiming
