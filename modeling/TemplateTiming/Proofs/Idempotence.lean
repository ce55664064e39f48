import TemplateTiming.Proofs.Reference

/-! Substituting a second time. A value can meet the text around it at both of its ends; if no reference begins in it
and it does not complete one that begins before it, the references of the text that comes out are those that had no
value, as they stood and in their order. So nothing is left to be done. -/

namespace TemplateTiming

namespace Reference

/-- A value that no reference begins in and that cannot go on with one begun before it. -/
structure Inert (value : List Char) : Prop where
  nonempty : value ≠ []
  noDollar : '$' ∉ value
  noBrace : value.head? ≠ some '{'

end Reference

/-- Every value that is text is inert. Of other values and of names nothing is asked. -/
def Environment.Tame (env : Environment) : Prop :=
  ∀ name value, env name = some (Utf8.encode value) → Reference.Inert value

namespace Reference

/-! ### Text that opens no reference -/

/-- No reference begins in the text, and none is left half opened at its end. -/
structure Quiet (text : List Char) : Prop where
  noOpening : ¬['$', '{'] <:+: text
  closed : text.getLast? ≠ some '$'

theorem Quiet.tail {c : Char} {text : List Char} (h : Quiet (c :: text)) : Quiet text where
  noOpening := fun hopens => h.noOpening (List.infix_cons hopens)
  closed := by
    intro hlast
    refine h.closed ?_
    rw [List.getLast?_cons, hlast]
    rfl

theorem Quiet.of_append {front back : List Char} (h : Quiet (front ++ back)) : Quiet back := by
  induction front with
  | nil => exact h
  | cons c front ih => exact ih h.tail

/-- Behind a dollar sign stands something, and it is no brace. -/
theorem Quiet.behind_dollar {text : List Char} (h : Quiet ('$' :: text)) (rest : List Char) :
    text ≠ [] ∧ (text ++ rest).head? ≠ some '{' := by
  cases text with
  | nil => exact absurd rfl h.closed
  | cons d text =>
      refine ⟨List.cons_ne_nil d text, fun hhead => ?_⟩
      obtain rfl : d = '{' := Option.some.inj hhead
      exact h.noOpening ⟨[], text, rfl⟩

theorem Inert.quiet {value : List Char} (h : Inert value) : Quiet value where
  noOpening := fun hopens => h.noDollar (hopens.subset List.mem_cons_self)
  closed := fun hlast => h.noDollar (List.mem_of_getLast? hlast)

/-- The place where an inert value meets the text before it. -/
theorem Inert.quiet_append {value : List Char} (h : Inert value) {before : List Char}
    (hbefore : ¬['$', '{'] <:+: before) : Quiet (before ++ value) := by
  have hlast : (before ++ value).getLast? = value.getLast? := List.getLast?_append_of_ne_nil before h.nonempty
  refine ⟨?_, by rw [hlast]; exact h.quiet.closed⟩
  clear hlast
  induction before with
  | nil => exact h.quiet.noOpening
  | cons c before ih =>
      rw [List.cons_append, List.infix_cons_iff, not_or]
      refine ⟨?_, ih fun hopens => hbefore (List.infix_cons hopens)⟩
      rintro ⟨rest, hprefix⟩
      obtain ⟨rfl, hbehind⟩ := List.cons.inj hprefix
      cases before with
      | nil =>
          rw [List.nil_append] at hbehind
          exact h.noBrace (by rw [← hbehind]; rfl)
      | cons d before =>
          obtain rfl := (List.cons.inj hbehind).1
          exact hbefore ⟨[], before, rfl⟩

/-- Quiet text does not change how the references behind it are found. -/
theorem opening?_append_quiet {front : List Char} (h : Quiet front) (block : List Char) :
    opening? (front ++ block) = (opening? block).map fun (before, name) => (front ++ before, name) := by
  induction front with
  | nil => simp
  | cons c front ih =>
      have hne : ∀ name, c :: (front ++ block) ≠ '$' :: '{' :: name := by
        intro name heq
        obtain ⟨rfl, hbehind⟩ := List.cons.inj heq
        exact (h.behind_dollar block).2 (by rw [hbehind]; rfl)
      rw [List.cons_append, opening?_cons_of_ne hne, ih h.tail, Option.map_map]
      rfl

theorem blockNames_append_quiet {front : List Char} (h : Quiet front) (block : List Char) :
    blockNames (front ++ block) = blockNames block := by
  cases hopen : opening? block with
  | none => rw [blockNames_of_none hopen, blockNames_of_none (by rw [opening?_append_quiet h, hopen]; rfl)]
  | some found =>
      have hopen' : opening? (front ++ block) = some (front ++ found.1, found.2) := by
        rw [opening?_append_quiet h, hopen]
        rfl
      rw [blockNames_of_some hopen, blockNames_of_some hopen']

theorem blockNames_of_noOpening {block : List Char} (h : ¬['$', '{'] <:+: block) : blockNames block = [] := by
  cases hopen : opening? block with
  | none => exact blockNames_of_none hopen
  | some found =>
      refine absurd ⟨found.1, found.2, ?_⟩ h
      rw [(opening?_eq_some hopen).1, List.append_assoc]
      rfl

theorem names_append_quiet {front : List Char} (h : Quiet front) (text : List Char) :
    names (front ++ text) = names text := by
  induction front using block_induction with
  | rest front hfront =>
      induction text using block_induction with
      | rest text htext =>
          rw [names_of_not_mem htext, names_of_not_mem (List.not_mem_append hfront htext)]
      | block b text hb _ =>
          rw [← List.append_assoc, names_block (List.not_mem_append hfront hb), names_block hb,
            blockNames_append_quiet h]
  | block b front hb ih =>
      have hnone : blockNames b = [] :=
        blockNames_of_noOpening fun hopens => h.noOpening (hopens.trans (List.infix_append' [] b _))
      have hfront : Quiet front := @Quiet.of_append (b ++ ['}']) front (by simpa using h)
      rw [List.append_assoc, List.cons_append, names_block hb, hnone, ih hfront, List.nil_append]

/-! ### What is left after substituting -/

/-- A block either stays as it is, and then what it refers to is not set, or it makes room for a value and leaves quiet
text behind. -/
theorem blockText_cases {env : Environment} (henv : env.Tame) (block : List Char) :
    (blockText env block = block ++ ['}'] ∧ ∀ name ∈ blockNames block, env.text? name = none) ∨
      (Quiet (blockText env block) ∧ ∀ name ∈ blockNames block, env.text? name ≠ none) := by
  cases hopen : opening? block with
  | none =>
      rw [blockNames_of_none hopen]
      exact Or.inl ⟨by rw [blockText, hopen], by simp⟩
  | some found =>
      obtain ⟨before, name⟩ := found
      rw [blockNames_of_some hopen]
      by_cases hname : name = []
      · rw [hname] at hopen
        exact Or.inl ⟨blockText_of_no_name env hopen, by simp [hname]⟩
      rw [if_neg hname, blockText_of_name env hopen hname]
      obtain ⟨heq, hbefore⟩ := opening?_eq_some hopen
      cases hvalue : env.text? name with
      | none =>
          refine Or.inl ⟨?_, by simp [hvalue]⟩
          rw [heq]
          simp [written]
      | some value =>
          have hinert : Inert value := henv name value ((env.text?_eq_some_iff name value).mp hvalue)
          exact Or.inr ⟨hinert.quiet_append hbefore, by simp [hvalue]⟩

theorem names_substitute {env : Environment} (henv : env.Tame) (text : List Char) :
    names (substitute env.text? text) = (names text).filter fun name => env.text? name = none := by
  induction text using block_induction with
  | rest r hr =>
      rw [substitute_of_not_mem _ hr, names_of_not_mem hr]
      rfl
  | block b text hb ih =>
      rw [substitute_block env hb, names_block hb, List.filter_append]
      rcases blockText_cases henv b with ⟨hkept, hunset⟩ | ⟨hquiet, hset⟩
      · rw [hkept, List.append_assoc, List.singleton_append, names_block hb, ih,
          List.filter_eq_self.mpr fun name hname => decide_eq_true (hunset name hname)]
      · have hdropped : (blockNames b).filter (fun name => env.text? name = none) = [] :=
          List.filter_eq_nil_iff.mpr fun name hname => by simpa using hset name hname
        rw [names_append_quiet hquiet, ih, hdropped, List.nil_append]

/-- **Substituting a second time changes nothing.** In an environment whose values are inert the references of the text
that comes out are those of the text that went in whose variables have no value, in their order; so no reference has
been put together out of a value and the text around it, and none is cut differently. -/
theorem substitute_idempotent {env : Environment} (henv : env.Tame) (text : List Char) :
    substitute env.text? (substitute env.text? text) = substitute env.text? text ∧
      names (substitute env.text? text) = (names text).filter fun name => env.text? name = none := by
  have hnames := names_substitute henv text
  refine ⟨substitute_of_names_unset fun name hname => ?_, hnames⟩
  rw [hnames] at hname
  exact of_decide_eq_true (List.mem_filter.mp hname).2

/-- A value with braces of its own, behind a dollar sign and in front of a brace. -/
theorem substitute_idempotent_braces :
    let env : Environment := fun name => if name = ['V'] then some (Utf8.encode "a\x7d\x7bb".toList) else none
    let text := "$$\x7bV\x7d\x7bX\x7d $\x7bA$\x7bV\x7d $\x7bV\x7d".toList
    env.Tame ∧ substitute env.text? text = "$a\x7d\x7bb\x7bX\x7d $\x7bA$\x7bV\x7d a\x7d\x7bb".toList ∧
      substitute env.text? (substitute env.text? text) = substitute env.text? text ∧
      names (substitute env.text? text) = ["A$\x7bV".toList] := by
  intro env text
  have htame : env.Tame := by
    intro name value hvalue
    simp only [env] at hvalue
    split_ifs at hvalue
    obtain rfl : "a\x7d\x7bb".toList = value := by
      rw [← Utf8.lossy_encode value, ← Option.some.inj hvalue, Utf8.lossy_encode]
    exact ⟨by decide, by decide, by decide⟩
  obtain ⟨hagain, hnames⟩ := substitute_idempotent htame text
  exact ⟨htame, by decide +kernel, hagain, hnames.trans (by decide +kernel)⟩

-- an empty value, a brace at its front (`\x7b`) or a dollar sign at its end puts a new reference together
example :
    let values (v name : List Char) : Option (List Char) :=
      if name = ['V'] then some v else if name = ['X'] then some ['1'] else none
    let twice (v : List Char) (text : String) := substitute (values v) (substitute (values v) text.toList)
    substitute (values []) "$$\x7bV\x7d\x7bX\x7d".toList = "$\x7bX\x7d".toList ∧
      twice [] "$$\x7bV\x7d\x7bX\x7d" = ['1'] ∧
      substitute (values "\x7bX\x7d".toList) "$$\x7bV\x7d".toList = "$\x7bX\x7d".toList ∧
      twice "\x7bX\x7d".toList "$$\x7bV\x7d" = ['1'] ∧
      substitute (values ['$']) "$\x7bV\x7d\x7bX\x7d".toList = "$\x7bX\x7d".toList ∧
      twice ['$'] "$\x7bV\x7d\x7bX\x7d" = ['1'] := by
  decide +kernel

end Reference

end TemplateTiming
