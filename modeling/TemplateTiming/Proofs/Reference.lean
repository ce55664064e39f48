import TemplateTiming.Environment
import TemplateTiming.Proofs.Utf8

/-! References cut out of a text block by block. A closing brace ends a block, and a block holds at most one
reference: the first `${` in it opens the name, which goes on to the brace. So the cuts are known from the text
alone, and values are put in afterwards. -/

namespace TemplateTiming

/-- A variable counts as set where its value is the encoding of a text. -/
theorem Environment.text?_eq_some_iff (env : Environment) (name value : List Char) :
    env.text? name = some value ↔ env name = some (Utf8.encode value) := by
  rw [text?, Option.bind_eq_some_iff]
  constructor
  · rintro ⟨octets, hset, hdecode⟩
    rw [hset, (Utf8.decode?_eq_some_iff octets value).mp hdecode]
  · intro hset
    exact ⟨Utf8.encode value, hset, (Utf8.decode?_eq_some_iff _ _).mpr rfl⟩

namespace Reference

/-- What stands in front of the first `${` of a block, and what stands behind it. -/
def opening? : List Char → Option (List Char × List Char)
  | [] => none
  | '$' :: '{' :: name => some ([], name)
  | c :: rest => (opening? rest).map fun (before, name) => (c :: before, name)

/-- What becomes of a block and the brace behind it. -/
def blockText (env : Environment) (block : List Char) : List Char :=
  match opening? block with
  | none => block ++ ['}']
  | some (before, name) =>
    if name = [] then block ++ ['}']
    else
      match env.text? name with
      | some value => before ++ value
      | none => block ++ ['}']

/-- The text made of blocks with a brace behind each, but not behind the last one, which is copied. -/
def blockwise (env : Environment) : List (List Char) → List Char
  | [] => []
  | [rest] => rest
  | block :: next :: more => blockText env block ++ blockwise env (next :: more)

inductive Piece where
  | literal (text : List Char)
  | reference (name : List Char)
  deriving DecidableEq, Repr

/-- A name is replaced by its value as it is; without a value the reference stays as written. -/
def Piece.filled (env : Environment) : Piece → List Char
  | .literal text => text
  | .reference name => (env.text? name).getD (written name)

def blockPieces (block : List Char) : List Piece :=
  match opening? block with
  | none => [.literal (block ++ ['}'])]
  | some (before, name) =>
    if name = [] then [.literal (block ++ ['}'])] else [.literal before, .reference name]

/-- The literal texts and the names, without a look at any value. -/
def pieces : List (List Char) → List Piece
  | [] => []
  | [rest] => [.literal rest]
  | block :: next :: more => blockPieces block ++ pieces (next :: more)

def Piece.name? : Piece → Option (List Char)
  | .literal _ => none
  | .reference name => some name

/-- The names of the references in a text, in order and with repetitions, whether they are set or not. -/
def names (text : List Char) : List (List Char) := (pieces (text.splitOn '}')).filterMap Piece.name?

/-- The name that a block refers to, if any. -/
def blockNames (block : List Char) : List (List Char) := (blockPieces block).filterMap Piece.name?

theorem blockwise_cons (env : Environment) (block : List Char) {more : List (List Char)} (hmore : more ≠ []) :
    blockwise env (block :: more) = blockText env block ++ blockwise env more := by
  cases more with
  | nil => exact absurd rfl hmore
  | cons next more => rfl

/-- Every text is built from a rest without a closing brace by putting blocks in front. -/
theorem block_induction {motive : List Char → Prop} (rest : ∀ r, '}' ∉ r → motive r)
    (block : ∀ b text, '}' ∉ b → motive text → motive (b ++ '}' :: text)) (text : List Char) : motive text := by
  induction hlength : text.length using Nat.strong_induction_on generalizing text with
  | _ n ih =>
      by_cases hmem : '}' ∈ text
      · obtain ⟨b, after, rfl, hb⟩ := List.eq_append_cons_of_mem hmem
        have hafter : after.length < n := by
          rw [← hlength, List.length_append, List.length_cons]
          omega
        exact block b after hb (ih after.length hafter after rfl)
      · exact rest text hmem

/-! ### The opening of a name -/

theorem opening?_cons_of_ne {c : Char} {rest : List Char} (h : ∀ name, c :: rest ≠ '$' :: '{' :: name) :
    opening? (c :: rest) = (opening? rest).map fun (before, name) => (c :: before, name) := by
  rw [opening?]
  intro name hc hrest
  exact h name (by rw [hc, hrest])

theorem opening?_eq_none {block : List Char} (h : opening? block = none) : ¬['$', '{'] <:+: block := by
  induction block with
  | nil =>
      intro hinfix
      simpa using hinfix.length_le
  | cons c rest ih =>
      by_cases hopen : ∃ name, c :: rest = '$' :: '{' :: name
      · obtain ⟨name, heq⟩ := hopen
        rw [heq, opening?] at h
        cases h
      · rw [not_exists] at hopen
        rw [opening?_cons_of_ne hopen, Option.map_eq_none_iff] at h
        intro hinfix
        rcases List.infix_cons_iff.mp hinfix with ⟨name, hprefix⟩ | hinfix
        · exact hopen name hprefix.symm
        · exact ih h hinfix

/-- The opening that is found is the first one. -/
theorem opening?_eq_some {block before name : List Char} (h : opening? block = some (before, name)) :
    block = before ++ '$' :: '{' :: name ∧ ¬['$', '{'] <:+: before := by
  induction block generalizing before with
  | nil => cases h
  | cons c rest ih =>
      by_cases hopen : ∃ name, c :: rest = '$' :: '{' :: name
      · obtain ⟨name', heq⟩ := hopen
        rw [heq, opening?] at h
        cases h
        refine ⟨heq, fun hinfix => ?_⟩
        simpa using hinfix.length_le
      · rw [not_exists] at hopen
        rw [opening?_cons_of_ne hopen, Option.map_eq_some_iff] at h
        obtain ⟨⟨before', name'⟩, hrest, heq⟩ := h
        cases heq
        obtain ⟨hblock, hbefore⟩ := ih hrest
        refine ⟨by rw [hblock, List.cons_append], fun hinfix => ?_⟩
        rcases List.infix_cons_iff.mp hinfix with ⟨tail, hprefix⟩ | hinfix
        · exact hopen (tail ++ '$' :: '{' :: name) (by rw [hblock, ← List.cons_append, ← hprefix]; rfl)
        · exact hbefore hinfix

theorem opening?_append {before : List Char} (h : ¬['$', '{'] <:+: before) (name : List Char) :
    opening? (before ++ '$' :: '{' :: name) = some (before, name) := by
  induction before with
  | nil => rfl
  | cons c before ih =>
      have hne : ∀ tail, c :: (before ++ '$' :: '{' :: name) ≠ '$' :: '{' :: tail := by
        intro tail heq
        obtain ⟨hc, htail⟩ := List.cons.inj heq
        cases before with
        | nil => exact absurd (List.cons.inj htail).1 (by decide)
        | cons d before =>
            rw [hc, (List.cons.inj htail).1] at h
            exact h ⟨[], before, rfl⟩
      rw [List.cons_append, opening?_cons_of_ne hne, ih (fun hinfix => h (List.infix_cons hinfix))]
      rfl

/-! ### The scan within a block -/

variable (value? : List Char → Option (List Char))

theorem substitute_cons_of_ne {c : Char} (hc : c ≠ '$') (rest : List Char) :
    substitute value? (c :: rest) = c :: substitute value? rest := by
  rw [substitute, if_neg hc]

theorem substitute_dollar_of_none {rest : List Char} (h : read? rest = none) :
    substitute value? ('$' :: rest) = '$' :: substitute value? rest := by
  rw [substitute, if_pos rfl]
  split
  · rename_i hsome
    rw [h] at hsome
    cases hsome
  · rfl

theorem substitute_dollar_of_some {rest name after : List Char} (h : read? rest = some (name, after)) :
    substitute value? ('$' :: rest) = (value? name).getD (written name) ++ substitute value? after := by
  rw [substitute, if_pos rfl]
  split
  · rename_i hsome
    rw [h] at hsome
    cases hsome
    rfl
  · rename_i hnone
    rw [h] at hnone
    cases hnone

theorem read?_of_head_ne {rest : List Char} (h : rest.head? ≠ some '{') : read? rest = none := by
  unfold read?
  split
  · exact absurd rfl h
  · rfl

theorem read?_of_not_mem {rest : List Char} (h : '}' ∉ rest) : read? rest = none := by
  unfold read?
  split
  · rename_i body
    have hdrop : body.dropWhile (fun c => decide (c ≠ '}')) = [] := by
      rw [List.dropWhile_eq_nil_iff]
      intro c hc
      exact decide_eq_true (fun heq => h (List.mem_cons_of_mem _ (heq ▸ hc)))
    rw [hdrop]
  · rfl

theorem read?_name {name : List Char} (hname : '}' ∉ name) (after : List Char) :
    read? ('{' :: (name ++ '}' :: after)) = if name = [] then none else some (name, after) := by
  have hkeep : ∀ c ∈ name, decide (c ≠ '}') = true := fun c hc => decide_eq_true (fun heq => hname (heq ▸ hc))
  have hdrop : (name ++ '}' :: after).dropWhile (fun c => decide (c ≠ '}')) = '}' :: after := by
    rw [List.dropWhile_append_of_pos hkeep]
    rfl
  have htake : (name ++ '}' :: after).takeWhile (fun c => decide (c ≠ '}')) = name := by
    rw [List.takeWhile_append_of_pos hkeep]
    simp
  simp only [read?, hdrop, htake]
  cases name with
  | nil => rfl
  | cons c name =>
      have hc : c ≠ '}' := fun heq => hname (heq ▸ List.mem_cons_self)
      simp [hc]

/-- Where no name is opened, text is copied up to a character that cannot complete an opening. -/
theorem substitute_append {before : List Char} (hbefore : ¬['$', '{'] <:+: before) {c : Char} (hc : c ≠ '{')
    (rest : List Char) :
    substitute value? (before ++ c :: rest) = before ++ substitute value? (c :: rest) := by
  induction before with
  | nil => rfl
  | cons d before ih =>
      have htail : ¬['$', '{'] <:+: before := fun hinfix => hbefore (List.infix_cons hinfix)
      rw [List.cons_append, List.cons_append]
      by_cases hd : d = '$'
      · have hread : read? (before ++ c :: rest) = none := by
          apply read?_of_head_ne
          intro hhead
          cases before with
          | nil => exact hc (Option.some.inj hhead)
          | cons e before =>
              rw [hd, Option.some.inj hhead] at hbefore
              exact hbefore ⟨[], before, rfl⟩
        rw [hd, substitute_dollar_of_none value? hread, ih htail]
      · rw [substitute_cons_of_ne value? hd, ih htail]

/-- A text without a closing brace is copied. -/
theorem substitute_of_not_mem {text : List Char} (h : '}' ∉ text) : substitute value? text = text := by
  induction text with
  | nil => rw [substitute]
  | cons c rest ih =>
      have hrest : '}' ∉ rest := fun hmem => h (List.mem_cons_of_mem c hmem)
      by_cases hc : c = '$'
      · rw [hc, substitute_dollar_of_none value? (read?_of_not_mem hrest), ih hrest]
      · rw [substitute_cons_of_ne value? hc, ih hrest]

theorem blockText_of_name (env : Environment) {block before name : List Char}
    (h : opening? block = some (before, name)) (hname : name ≠ []) :
    blockText env block = before ++ (env.text? name).getD (written name) := by
  rw [blockText, h]
  simp only [if_neg hname]
  cases env.text? name with
  | some value => rfl
  | none =>
      rw [(opening?_eq_some h).1]
      simp only [Option.getD_none, written, List.append_assoc, List.cons_append, List.nil_append]

theorem blockText_of_no_name (env : Environment) {block before : List Char}
    (h : opening? block = some (before, [])) : blockText env block = block ++ ['}'] := by
  rw [blockText, h]
  exact if_pos rfl

/-- A reference to a variable with a value. -/
theorem blockText_of_value {env : Environment} {before name value : List Char} (hbefore : ¬['$', '{'] <:+: before)
    (hname : name ≠ []) (hvalue : env name = some (Utf8.encode value)) :
    blockText env (before ++ '$' :: '{' :: name) = before ++ value := by
  rw [blockText_of_name env (opening?_append hbefore name) hname,
    (env.text?_eq_some_iff name value).mpr hvalue, Option.getD_some]

/-- All other blocks are copied with their brace. -/
theorem blockText_of_no_value {env : Environment} {block : List Char}
    (h : ∀ before name value, block = before ++ '$' :: '{' :: name → ¬['$', '{'] <:+: before → name ≠ [] →
      env name ≠ some (Utf8.encode value)) : blockText env block = block ++ ['}'] := by
  cases hopen : opening? block with
  | none => rw [blockText, hopen]
  | some found =>
      obtain ⟨before, name⟩ := found
      by_cases hname : name = []
      · rw [hname] at hopen
        exact blockText_of_no_name env hopen
      · obtain ⟨heq, hbefore⟩ := opening?_eq_some hopen
        have hunset : env.text? name = none := by
          rw [Option.eq_none_iff_forall_ne_some]
          intro value hvalue
          exact h before name value heq hbefore hname ((env.text?_eq_some_iff name value).mp hvalue)
        rw [blockText, hopen]
        simp only [if_neg hname, hunset]

/-- A block is settled by itself. -/
theorem substitute_block (env : Environment) {block : List Char} (hblock : '}' ∉ block) (text : List Char) :
    substitute env.text? (block ++ '}' :: text) = blockText env block ++ substitute env.text? text := by
  cases hopen : opening? block with
  | none =>
      rw [substitute_append _ (opening?_eq_none hopen) (by decide), substitute_cons_of_ne _ (by decide), blockText,
        hopen]
      simp only [List.append_assoc, List.singleton_append]
  | some found =>
      obtain ⟨before, name⟩ := found
      obtain ⟨heq, hbefore⟩ := opening?_eq_some hopen
      have hname : '}' ∉ name := fun hmem => hblock (by rw [heq]; simp [hmem])
      have hsplit : block ++ '}' :: text = before ++ '$' :: '{' :: (name ++ '}' :: text) := by
        rw [heq, List.append_assoc]
        rfl
      rw [hsplit, substitute_append _ hbefore (by decide)]
      have hread := read?_name hname text
      by_cases hempty : name = []
      · rw [if_pos hempty] at hread
        rw [hempty] at hopen heq
        rw [substitute_dollar_of_none _ hread, substitute_cons_of_ne _ (by decide), hempty, List.nil_append,
          substitute_cons_of_ne _ (by decide), blockText_of_no_name env hopen, heq]
        simp only [List.append_assoc, List.cons_append, List.nil_append]
      · rw [if_neg hempty] at hread
        rw [substitute_dollar_of_some _ hread, blockText_of_name env hopen hempty, List.append_assoc]

/-! ### The names in a text -/

theorem names_of_not_mem {text : List Char} (h : '}' ∉ text) : names text = [] := by
  rw [names, List.splitOn_eq_singleton h]
  rfl

theorem names_block {block : List Char} (hblock : '}' ∉ block) (text : List Char) :
    names (block ++ '}' :: text) = blockNames block ++ names text := by
  obtain ⟨next, more, hmore⟩ := List.exists_cons_of_ne_nil (List.splitOn_ne_nil '}' text)
  rw [names, List.splitOn_append_cons_self_of_not_mem hblock, names, hmore, pieces, List.filterMap_append, blockNames]

theorem blockNames_of_none {block : List Char} (h : opening? block = none) : blockNames block = [] := by
  rw [blockNames, blockPieces, h]
  rfl

theorem blockNames_of_some {block before name : List Char} (h : opening? block = some (before, name)) :
    blockNames block = if name = [] then [] else [name] := by
  rw [blockNames, blockPieces, h]
  simp only
  split_ifs
  · rfl
  · rfl

/-- A text stays as it is if none of its references has a value. -/
theorem substitute_of_names_unset {env : Environment} {text : List Char}
    (h : ∀ name ∈ names text, env.text? name = none) : substitute env.text? text = text := by
  induction text using block_induction with
  | rest r hr => exact substitute_of_not_mem _ hr
  | block b text hb ih =>
      rw [names_block hb] at h
      have hkept : blockText env b = b ++ ['}'] := by
        refine blockText_of_no_value fun before name value heq hbefore hname hvalue => ?_
        have hmem : name ∈ blockNames b := by
          rw [heq, blockNames_of_some (opening?_append hbefore name), if_neg hname]
          exact List.mem_singleton_self name
        have hset := (env.text?_eq_some_iff name value).mpr hvalue
        rw [h name (List.mem_append_left _ hmem)] at hset
        cases hset
      rw [substitute_block env hb, hkept, ih fun name hname => h name (List.mem_append_right _ hname),
        List.append_assoc, List.singleton_append]

/-- Without a variable that is set a text stays as it is. -/
theorem substitute_of_unset {env : Environment} (henv : ∀ name, env.text? name = none) (text : List Char) :
    substitute env.text? text = text :=
  substitute_of_names_unset fun name _ => henv name

/-! ### The pieces of a text -/

theorem blockPieces_filled (env : Environment) (block : List Char) :
    (blockPieces block).flatMap (Piece.filled env) = blockText env block := by
  cases hopen : opening? block with
  | none => simp only [blockPieces, blockText, hopen, List.flatMap_cons, List.flatMap_nil, Piece.filled,
      List.append_nil]
  | some found =>
      obtain ⟨before, name⟩ := found
      by_cases hempty : name = []
      · simp only [blockPieces, blockText, hopen, if_pos hempty, List.flatMap_cons, List.flatMap_nil, Piece.filled,
          List.append_nil]
      · rw [blockText_of_name env hopen hempty]
        simp only [blockPieces, hopen, if_neg hempty, List.flatMap_cons, List.flatMap_nil, Piece.filled,
          List.append_nil]

theorem blockwise_eq_pieces (env : Environment) (blocks : List (List Char)) :
    blockwise env blocks = (pieces blocks).flatMap (Piece.filled env) := by
  induction blocks with
  | nil => rfl
  | cons block more ih =>
      cases more with
      | nil => exact (List.append_nil block).symm
      | cons next more => rw [blockwise, pieces, List.flatMap_append, blockPieces_filled, ih]

/-- **Scanning from left to right is settling block by block.** A block is a stretch up to a closing brace. With
the first `${` in it and a name of a variable that has a text for its value it becomes what stands in front, and
the value; any other block is copied with its brace, and so is the rest of the text. The pieces are cut out of the
text before any value is known, and a value is only put in. -/
theorem substitute_eq_blockwise (env : Environment) (text : List Char) :
    substitute env.text? text = blockwise env (text.splitOn '}') ∧
    (∀ before name value, ¬['$', '{'] <:+: before → name ≠ [] → env name = some (Utf8.encode value) →
      blockText env (before ++ '$' :: '{' :: name) = before ++ value) ∧
    (∀ block, (∀ before name value, block = before ++ '$' :: '{' :: name → ¬['$', '{'] <:+: before → name ≠ [] →
      env name ≠ some (Utf8.encode value)) → blockText env block = block ++ ['}']) ∧
    substitute env.text? text = (pieces (text.splitOn '}')).flatMap (Piece.filled env) := by
  have hblocks : substitute env.text? text = blockwise env (text.splitOn '}') := by
    induction text using block_induction with
    | rest r hr => rw [substitute_of_not_mem _ hr, List.splitOn_eq_singleton hr, blockwise]
    | block b text hb ih =>
        rw [substitute_block env hb, ih, List.splitOn_append_cons_self_of_not_mem hb,
          blockwise_cons env b (List.splitOn_ne_nil '}' text)]
  refine ⟨hblocks, ?_, ?_, ?_⟩
  · intro before name value hbefore hname hvalue
    exact blockText_of_value hbefore hname hvalue
  · intro block hother
    exact blockText_of_no_value hother
  · rw [hblocks, blockwise_eq_pieces]

end Reference

end TemplateTiming
