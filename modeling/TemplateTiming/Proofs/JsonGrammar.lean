import Mathlib.Data.List.Basic
import Mathlib.Data.List.TakeWhile
import TemplateTiming.Json.Reader

/-! The grammar of JSON, as a relation between a text, the value that it begins with, and what is left of
the text. The grammar is unambiguous: a text denotes one value at most. So whoever reads JSON by its grammar finds the
same value in a text, and to know that value one derivation is enough.

A number ends where no character follows that could continue it. The rules do not ask for that, since what stands behind
a value in a whole text never continues a number; the proof that a value is unique has to carry it along. -/

namespace TemplateTiming.Json

/-- Blanks: a text, and what is left of it behind some of its leading blanks. -/
inductive Blanks : List Char → List Char → Prop
  | none (text : List Char) : Blanks text text
  | more {c : Char} {text rest : List Char} :
      c ∈ [' ', '\t', '\n', '\r'] → Blanks text rest → Blanks (c :: text) rest

def Digits (ds : List Char) : Prop := ds ≠ [] ∧ ∀ d ∈ ds, Decimal.isDigit d = true

/-- A zero, or digits that do not begin with one. -/
inductive Whole : List Char → Prop
  | zero : Whole ['0']
  | digits {d : Char} {ds : List Char} : d ≠ '0' → Digits (d :: ds) → Whole (d :: ds)

inductive Fraction : List Char → Prop
  | none : Fraction []
  | places {ds : List Char} : Digits ds → Fraction ('.' :: ds)

inductive Exponent : List Char → Prop
  | none : Exponent []
  | power {letter : Char} {sign ds : List Char} :
      letter ∈ ['e', 'E'] → sign ∈ [[], ['+'], ['-']] → Digits ds → Exponent (letter :: (sign ++ ds))

/-- A number by its parts. -/
structure Numeral where
  sign : List Char
  whole : List Char
  fraction : List Char
  exponent : List Char
  sign_form : sign ∈ [[], ['-']]
  whole_form : Whole whole
  fraction_form : Fraction fraction
  exponent_form : Exponent exponent

def Numeral.text (n : Numeral) : List Char := n.sign ++ n.whole ++ n.fraction ++ n.exponent

/-- The letters that may stand behind a backslash, and what they mean. -/
def escapes : List (Char × Char) :=
  [('"', '"'), ('\\', '\\'), ('/', '/'), ('b', '\x08'), ('f', '\x0c'), ('n', '\n'), ('r', '\r'), ('t', '\t')]

/-- Four hexadecimal digits, the number that they make up, and the text behind them. -/
inductive Hex : List Char → Nat → List Char → Prop
  | digits {a b c d : Char} {x y z w : Nat} {rest : List Char} :
      hexValue? a = some x → hexValue? b = some y → hexValue? c = some z → hexValue? d = some w →
        Hex (a :: b :: c :: d :: rest) (((x * 16 + y) * 16 + z) * 16 + w) rest

/-- The text behind an opening quote, the characters that are meant, and the text behind the closing quote. -/
inductive Characters : List Char → List Char → List Char → Prop
  | close (rest : List Char) : Characters ('"' :: rest) [] rest
  | plain {c : Char} {text s rest : List Char} :
      0x20 ≤ c.toNat → c ≠ '"' → c ≠ '\\' → Characters text s rest → Characters (c :: text) (c :: s) rest
  | escape {letter c : Char} {text s rest : List Char} :
      escapes.lookup letter = some c → Characters text s rest → Characters ('\\' :: letter :: text) (c :: s) rest
  | code {text more s rest : List Char} {n : Nat} :
      Hex text n more → n < 0xD800 ∨ 0xDFFF < n → Characters more s rest →
        Characters ('\\' :: 'u' :: text) (Char.ofNat n :: s) rest
  | pair {text middle more s rest : List Char} {high low : Nat} :
      Hex text high ('\\' :: 'u' :: middle) → 0xD800 ≤ high → high ≤ 0xDBFF →
      Hex middle low more → 0xDC00 ≤ low → low ≤ 0xDFFF → Characters more s rest →
        Characters ('\\' :: 'u' :: text) (Char.ofNat (0x10000 + (high - 0xD800) * 0x400 + (low - 0xDC00)) :: s) rest

/-- What is read: a value, the items of an array from the first one on or behind an item, and likewise the members of
an object. -/
inductive Part where
  | value
  | items
  | behindItem
  | members
  | behindMember

inductive Reads : Part → List Char → Json → List Char → Prop
  | null (rest : List Char) : Reads .value ('n' :: 'u' :: 'l' :: 'l' :: rest) .null rest
  | yes (rest : List Char) : Reads .value ('t' :: 'r' :: 'u' :: 'e' :: rest) (.boolean true) rest
  | no (rest : List Char) : Reads .value ('f' :: 'a' :: 'l' :: 's' :: 'e' :: rest) (.boolean false) rest
  | number {text rest : List Char} (n : Numeral) : text = n.text ++ rest → Reads .value text (.number n.text) rest
  | string {text s rest : List Char} : Characters text s rest → Reads .value ('"' :: text) (.string s) rest
  | noItems {text rest : List Char} : Blanks text (']' :: rest) → Reads .value ('[' :: text) (.array []) rest
  | array {text rest : List Char} {items : List Json} :
      Reads .items text (.array items) rest → Reads .value ('[' :: text) (.array items) rest
  | item {text start behind rest : List Char} {v : Json} {items : List Json} :
      Blanks text start → Reads .value start v behind → Reads .behindItem behind (.array items) rest →
        Reads .items text (.array (v :: items)) rest
  | lastItem {text rest : List Char} : Blanks text (']' :: rest) → Reads .behindItem text (.array []) rest
  | nextItem {text more rest : List Char} {items : List Json} :
      Blanks text (',' :: more) → Reads .items more (.array items) rest → Reads .behindItem text (.array items) rest
  | noMembers {text rest : List Char} : Blanks text ('}' :: rest) → Reads .value ('{' :: text) (.object []) rest
  | object {text rest : List Char} {members : List (List Char × Json)} :
      Reads .members text (.object members) rest → Reads .value ('{' :: text) (.object members) rest
  | member {text inKey behindKey behindColon start behind rest key : List Char} {v : Json}
      {members : List (List Char × Json)} :
      Blanks text ('"' :: inKey) → Characters inKey key behindKey → Blanks behindKey (':' :: behindColon) →
      Blanks behindColon start → Reads .value start v behind → Reads .behindMember behind (.object members) rest →
        Reads .members text (.object ((key, v) :: members)) rest
  | lastMember {text rest : List Char} : Blanks text ('}' :: rest) → Reads .behindMember text (.object []) rest
  | nextMember {text more rest : List Char} {members : List (List Char × Json)} :
      Blanks text (',' :: more) → Reads .members more (.object members) rest →
        Reads .behindMember text (.object members) rest

/-- The text is a value with nothing but blanks around it. -/
def Denotes (text : List Char) (v : Json) : Prop :=
  ∃ start behind, Blanks text start ∧ Reads .value start v behind ∧ Blanks behind []

/-! ### Where blanks, strings and numbers end -/

/-- The text does not begin with a blank. -/
def Solid (text : List Char) : Prop := ∀ c ∈ text.head?, c ∉ [' ', '\t', '\n', '\r']

theorem solid_cons {c : Char} (hc : c ∉ [' ', '\t', '\n', '\r']) (text : List Char) : Solid (c :: text) := by
  rintro _ ⟨⟩
  exact hc

theorem Blanks.unique {text a b : List Char} (ha : Blanks text a) (hb : Blanks text b) (hsolid : Solid a)
    (hsolid' : Solid b) : a = b := by
  induction ha with
  | none text =>
      cases hb with
      | none => rfl
      | more hc _ => exact absurd hc (hsolid _ rfl)
  | more hc _ ih =>
      cases hb with
      | none => exact absurd hc (hsolid' _ rfl)
      | more _ hb => exact ih hb hsolid

theorem Hex.unique {text rest rest' : List Char} {n n' : Nat} (h : Hex text n rest) (h' : Hex text n' rest') :
    n = n' ∧ rest = rest' := by
  cases h with
  | digits ha hb hc hd =>
      cases h' with
      | digits ha' hb' hc' hd' =>
          rw [ha, Option.some.injEq] at ha'
          rw [hb, Option.some.injEq] at hb'
          rw [hc, Option.some.injEq] at hc'
          rw [hd, Option.some.injEq] at hd'
          rw [ha', hb', hc', hd']
          exact ⟨rfl, rfl⟩

theorem escapes_lookup_u : escapes.lookup 'u' = none := by decide

theorem Characters.unique {text s s' rest rest' : List Char} (h : Characters text s rest)
    (h' : Characters text s' rest') : s = s' ∧ rest = rest' := by
  induction h generalizing s' with
  | close rest =>
      cases h' with
      | close => exact ⟨rfl, rfl⟩
      | plain _ hquote => exact absurd rfl hquote
  | plain _ hquote hslash _ ih =>
      cases h' with
      | close => exact absurd rfl hquote
      | plain _ _ _ h' =>
          obtain ⟨rfl, rfl⟩ := ih h'
          exact ⟨rfl, rfl⟩
      | escape => exact absurd rfl hslash
      | code => exact absurd rfl hslash
      | pair => exact absurd rfl hslash
  | escape hletter _ ih =>
      cases h' with
      | plain _ _ hslash => exact absurd rfl hslash
      | escape hletter' h' =>
          obtain ⟨rfl, rfl⟩ := ih h'
          rw [hletter, Option.some.injEq] at hletter'
          exact ⟨by rw [hletter'], rfl⟩
      | code => exact nomatch escapes_lookup_u.symm.trans hletter
      | pair => exact nomatch escapes_lookup_u.symm.trans hletter
  | code hhex hrange _ ih =>
      cases h' with
      | plain _ _ hslash => exact absurd rfl hslash
      | escape hletter => exact nomatch escapes_lookup_u.symm.trans hletter
      | code hhex' _ h' =>
          obtain ⟨rfl, rfl⟩ := hhex.unique hhex'
          obtain ⟨rfl, rfl⟩ := ih h'
          exact ⟨rfl, rfl⟩
      | pair hhigh hlow hhigh' =>
          obtain ⟨rfl, -⟩ := hhex.unique hhigh
          omega
  | pair hhex hlow hhigh hhex' _ _ _ ih =>
      cases h' with
      | plain _ _ hslash => exact absurd rfl hslash
      | escape hletter => exact nomatch escapes_lookup_u.symm.trans hletter
      | code hcode hrange =>
          obtain ⟨rfl, -⟩ := hhex.unique hcode
          omega
      | pair hcode _ _ hcode' _ _ h' =>
          obtain ⟨rfl, hmiddle⟩ := hhex.unique hcode
          cases hmiddle
          obtain ⟨rfl, rfl⟩ := hhex'.unique hcode'
          obtain ⟨rfl, rfl⟩ := ih h'
          exact ⟨rfl, rfl⟩

/-- The characters that numbers consist of. -/
def inNumber (c : Char) : Bool := Decimal.isDigit c || ['-', '+', '.', 'e', 'E'].contains c

/-- No number goes on with the text. -/
def Ends (text : List Char) : Prop := ∀ c ∈ text.head?, inNumber c = false

theorem ends_cons {c : Char} (hc : inNumber c = false) (text : List Char) : Ends (c :: text) := by
  rintro _ ⟨⟩
  exact hc

theorem ends_nil : Ends [] := nofun

theorem Blanks.ends {behind : List Char} {rest : List Char} (h : Blanks behind rest) (hrest : Ends rest) :
    Ends behind := by
  cases h with
  | none => exact hrest
  | more hc _ =>
      apply ends_cons
      simp only [List.mem_cons, List.not_mem_nil, or_false] at hc
      rcases hc with rfl | rfl | rfl | rfl <;> decide

theorem Digits.all_inNumber {ds : List Char} (h : Digits ds) : ∀ c ∈ ds, inNumber c = true := by
  intro c hc
  rw [inNumber, h.2 c hc, Bool.true_or]

theorem Whole.digits_form {ds : List Char} (h : Whole ds) : Digits ds := by
  cases h with
  | zero => exact ⟨List.cons_ne_nil _ _, by simp [Decimal.isDigit]⟩
  | digits _ hds => exact hds

theorem Fraction.all_inNumber {cs : List Char} (h : Fraction cs) : ∀ c ∈ cs, inNumber c = true := by
  cases h with
  | none => exact nofun
  | places hds => exact List.forall_mem_cons.mpr ⟨by decide, hds.all_inNumber⟩

theorem Exponent.all_inNumber {cs : List Char} (h : Exponent cs) : ∀ c ∈ cs, inNumber c = true := by
  cases h with
  | none => exact nofun
  | power hletter hsign hds =>
      refine List.forall_mem_cons.mpr ⟨?_, List.forall_mem_append.mpr ⟨?_, hds.all_inNumber⟩⟩
      · rcases List.mem_pair.mp hletter with rfl | rfl <;> decide
      · simp only [List.mem_cons, List.not_mem_nil, or_false] at hsign
        rcases hsign with rfl | rfl | rfl <;> simp [inNumber]

theorem Numeral.all_inNumber (n : Numeral) : ∀ c ∈ n.text, inNumber c = true := by
  have hsign : ∀ c ∈ n.sign, inNumber c = true := by
    rcases List.mem_pair.mp n.sign_form with h | h <;> rw [h] <;> simp [inNumber]
  simp only [text, List.forall_mem_append]
  exact ⟨⟨⟨hsign, n.whole_form.digits_form.all_inNumber⟩, n.fraction_form.all_inNumber⟩, n.exponent_form.all_inNumber⟩

theorem Numeral.head (n : Numeral) : ∃ c more, n.text = c :: more ∧ inNumber c = true := by
  obtain ⟨d, ds, hwhole⟩ := List.exists_cons_of_ne_nil n.whole_form.digits_form.1
  have hne : n.text ≠ [] := by simp [text, hwhole]
  obtain ⟨c, more, htext⟩ := List.exists_cons_of_ne_nil hne
  exact ⟨c, more, htext, n.all_inNumber c (by rw [htext]; exact List.mem_cons_self)⟩

/-- Where a number ends is seen from what follows. -/
theorem Numeral.takeWhile (n : Numeral) {rest : List Char} (hrest : Ends rest) :
    (n.text ++ rest).takeWhile inNumber = n.text := by
  rw [List.takeWhile_append_of_pos n.all_inNumber]
  cases rest with
  | nil => rw [List.takeWhile_nil, List.append_nil]
  | cons c more => rw [List.takeWhile_cons_of_neg (by rw [hrest c rfl]; exact Bool.false_ne_true), List.append_nil]

theorem Numeral.unique {n n' : Numeral} {rest rest' : List Char} (hrest : Ends rest) (hrest' : Ends rest')
    (h : n.text ++ rest = n'.text ++ rest') : n.text = n'.text ∧ rest = rest' := by
  have htext : n.text = n'.text := by rw [← n.takeWhile hrest, h, n'.takeWhile hrest']
  rw [htext] at h
  exact ⟨htext, List.append_cancel_left h⟩

theorem Numeral.ne_cons (n : Numeral) {c : Char} (hc : inNumber c = false) {text rest : List Char} :
    c :: text ≠ n.text ++ rest := by
  obtain ⟨d, more, hhead, hd⟩ := n.head
  rw [hhead, List.cons_append]
  rintro ⟨⟩
  rw [hc] at hd
  exact Bool.false_ne_true hd

/-! ### A text denotes one value -/

/-- No value begins with a blank or with what separates values. -/
theorem Reads.head {text rest : List Char} {v : Json} (h : Reads .value text v rest) :
    ∃ c more, text = c :: more ∧ c ∉ [' ', '\t', '\n', '\r', ']', '}', ',', ':'] := by
  cases h with
  | number n htext =>
      obtain ⟨c, more, hhead, hc⟩ := n.head
      refine ⟨c, more ++ rest, by rw [htext, hhead, List.cons_append], ?_⟩
      intro hmem
      simp only [List.mem_cons, List.not_mem_nil, or_false] at hmem
      rcases hmem with rfl | rfl | rfl | rfl | rfl | rfl | rfl | rfl <;> exact absurd hc (by decide)
  | _ => exact ⟨_, _, rfl, by decide⟩

theorem Reads.solid {text rest : List Char} {v : Json} (h : Reads .value text v rest) : Solid text := by
  obtain ⟨c, more, rfl, hc⟩ := h.head
  exact solid_cons (fun hblank => hc (List.mem_append_left [']', '}', ',', ':'] hblank)) more

/-- Blanks in front of a value end where it begins. -/
theorem Reads.start_unique {text start start' rest rest' : List Char} {v v' : Json} (hblanks : Blanks text start)
    (hblanks' : Blanks text start') (h : Reads .value start v rest) (h' : Reads .value start' v' rest') :
    start = start' :=
  hblanks.unique hblanks' h.solid h'.solid

/-- The characters between values. -/
def marks : List Char := [']', '}', ',', ':', '"']

theorem solid_mark {c : Char} (hc : c ∈ marks) (rest : List Char) : Solid (c :: rest) := by
  apply solid_cons
  simp only [marks, List.mem_cons, List.not_mem_nil, or_false] at hc
  rcases hc with rfl | rfl | rfl | rfl | rfl <;> decide

theorem Blanks.mark_unique {text rest rest' : List Char} {c c' : Char} (h : Blanks text (c :: rest))
    (h' : Blanks text (c' :: rest')) (hc : c ∈ marks) (hc' : c' ∈ marks) : c = c' ∧ rest = rest' :=
  List.cons.inj (h.unique h' (solid_mark hc rest) (solid_mark hc' rest'))

/-- An array without items has no item. -/
theorem Reads.not_empty {text behind rest : List Char} {v : Json} (hclose : Blanks text (']' :: rest))
    (h : Reads .items text v behind) : False := by
  cases h with
  | item hstart hv _ =>
      obtain ⟨c, more, rfl, hc⟩ := hv.head
      obtain ⟨rfl, -⟩ := List.cons.inj (hclose.unique hstart (solid_mark (by decide) rest) hv.solid)
      exact hc (by decide)

/-- What follows a value within brackets does not continue a number. -/
theorem Reads.ends {part : Part} {behind rest : List Char} {v : Json} (h : Reads part behind v rest)
    (hpart : part = .behindItem ∨ part = .behindMember) : Ends behind := by
  cases h with
  | lastItem hclose => exact hclose.ends (ends_cons (by decide) _)
  | nextItem hcomma _ => exact hcomma.ends (ends_cons (by decide) _)
  | lastMember hclose => exact hclose.ends (ends_cons (by decide) _)
  | nextMember hcomma _ => exact hcomma.ends (ends_cons (by decide) _)
  | _ => simp at hpart

/-- One value can be read, and only up to one place, if what follows does not continue a number. -/
theorem Reads.unique {part : Part} {text rest rest' : List Char} {v v' : Json} (h : Reads part text v rest)
    (h' : Reads part text v' rest') (hends : part = .value → Ends rest ∧ Ends rest') : v = v' ∧ rest = rest' := by
  induction h generalizing v' rest' with
  | null rest =>
      cases h' with
      | null => exact ⟨rfl, rfl⟩
      | number n htext => exact absurd htext (n.ne_cons (by decide))
  | yes rest =>
      cases h' with
      | yes => exact ⟨rfl, rfl⟩
      | number n htext => exact absurd htext (n.ne_cons (by decide))
  | no rest =>
      cases h' with
      | no => exact ⟨rfl, rfl⟩
      | number n htext => exact absurd htext (n.ne_cons (by decide))
  | number n htext =>
      obtain ⟨hrest, hrest'⟩ := hends rfl
      cases h' with
      | number n' htext' =>
          obtain ⟨hsame, rfl⟩ := Numeral.unique hrest hrest' (htext.symm.trans htext')
          exact ⟨by rw [hsame], rfl⟩
      | _ => exact absurd htext (n.ne_cons (by decide))
  | string hs =>
      cases h' with
      | number n htext => exact absurd htext (n.ne_cons (by decide))
      | string hs' =>
          obtain ⟨rfl, rfl⟩ := hs.unique hs'
          exact ⟨rfl, rfl⟩
  | noItems hclose =>
      cases h' with
      | number n htext => exact absurd htext (n.ne_cons (by decide))
      | noItems hclose' => exact ⟨rfl, (hclose.mark_unique hclose' (by decide) (by decide)).2⟩
      | array hitems => exact (Reads.not_empty hclose hitems).elim
  | array hitems ih =>
      cases h' with
      | number n htext => exact absurd htext (n.ne_cons (by decide))
      | noItems hclose => exact (Reads.not_empty hclose hitems).elim
      | array hitems' => exact ih hitems' nofun
  | item hstart hv hbehind ih ihbehind =>
      cases h' with
      | item hstart' hv' hbehind' =>
          obtain rfl := Reads.start_unique hstart hstart' hv hv'
          obtain ⟨rfl, rfl⟩ := ih hv' fun _ => ⟨hbehind.ends (.inl rfl), hbehind'.ends (.inl rfl)⟩
          obtain ⟨hitems, rfl⟩ := ihbehind hbehind' nofun
          cases hitems
          exact ⟨rfl, rfl⟩
  | lastItem hclose =>
      cases h' with
      | lastItem hclose' => exact ⟨rfl, (hclose.mark_unique hclose' (by decide) (by decide)).2⟩
      | nextItem hcomma _ => exact absurd (hclose.mark_unique hcomma (by decide) (by decide)).1 (by decide)
  | nextItem hcomma _ ih =>
      cases h' with
      | lastItem hclose => exact absurd (hcomma.mark_unique hclose (by decide) (by decide)).1 (by decide)
      | nextItem hcomma' hitems' =>
          obtain ⟨-, rfl⟩ := hcomma.mark_unique hcomma' (by decide) (by decide)
          exact ih hitems' nofun
  | noMembers hclose =>
      cases h' with
      | number n htext => exact absurd htext (n.ne_cons (by decide))
      | noMembers hclose' => exact ⟨rfl, (hclose.mark_unique hclose' (by decide) (by decide)).2⟩
      | object hmembers =>
          cases hmembers with
          | member hquote => exact absurd (hclose.mark_unique hquote (by decide) (by decide)).1 (by decide)
  | object hmembers ih =>
      cases h' with
      | number n htext => exact absurd htext (n.ne_cons (by decide))
      | noMembers hclose =>
          cases hmembers with
          | member hquote => exact absurd (hclose.mark_unique hquote (by decide) (by decide)).1 (by decide)
      | object hmembers' => exact ih hmembers' nofun
  | member hquote hkey hcolon hstart hv hbehind ih ihbehind =>
      cases h' with
      | member hquote' hkey' hcolon' hstart' hv' hbehind' =>
          obtain ⟨-, rfl⟩ := hquote.mark_unique hquote' (by decide) (by decide)
          obtain ⟨rfl, rfl⟩ := hkey.unique hkey'
          obtain ⟨-, rfl⟩ := hcolon.mark_unique hcolon' (by decide) (by decide)
          obtain rfl := Reads.start_unique hstart hstart' hv hv'
          obtain ⟨rfl, rfl⟩ := ih hv' fun _ => ⟨hbehind.ends (.inr rfl), hbehind'.ends (.inr rfl)⟩
          obtain ⟨hmembers, rfl⟩ := ihbehind hbehind' nofun
          cases hmembers
          exact ⟨rfl, rfl⟩
  | lastMember hclose =>
      cases h' with
      | lastMember hclose' => exact ⟨rfl, (hclose.mark_unique hclose' (by decide) (by decide)).2⟩
      | nextMember hcomma _ => exact absurd (hclose.mark_unique hcomma (by decide) (by decide)).1 (by decide)
  | nextMember hcomma _ ih =>
      cases h' with
      | lastMember hclose => exact absurd (hcomma.mark_unique hclose (by decide) (by decide)).1 (by decide)
      | nextMember hcomma' hmembers' =>
          obtain ⟨-, rfl⟩ := hcomma.mark_unique hcomma' (by decide) (by decide)
          exact ih hmembers' nofun

/-- **JSON is unambiguous.** -/
theorem Denotes.unique {text : List Char} {v v' : Json} (h : Denotes text v) (h' : Denotes text v') : v = v' := by
  obtain ⟨start, behind, hstart, hv, hbehind⟩ := h
  obtain ⟨start', behind', hstart', hv', hbehind'⟩ := h'
  obtain rfl := Reads.start_unique hstart hstart' hv hv'
  exact (hv.unique hv' fun _ => ⟨hbehind.ends ends_nil, hbehind'.ends ends_nil⟩).1

end TemplateTiming.Json
