import TemplateTiming.Text.Utf8

/-! Environment variables, and references to them in a text. A reference is written as a dollar sign and a name
in braces; the name is whatever stands between the braces, at least one character. It is replaced by the value
of the variable, and stays as written if there is no such variable or its value is not UTF-8. Values are not
searched for references. -/

namespace TemplateTiming

/-- The value of each variable that is set. -/
abbrev Environment := List Char → Option (List UInt8)

namespace Environment

/-- The environment of a process, given as entries in the form NAME=VALUE: a name selects the first entry that
has an equals sign behind it. -/
def ofEntries (entries : List (List UInt8)) : Environment := fun name =>
  let key := Utf8.encode name ++ [0x3D]
  (entries.find? fun entry => key.isPrefixOf entry).map (·.drop key.length)

/-- The value of a variable, if it is text. -/
def text? (env : Environment) (name : List Char) : Option (List Char) := (env name).bind Utf8.decode?

end Environment

namespace Reference

/-- A reference as written. -/
def written (name : List Char) : List Char := ['$', '{'] ++ name ++ ['}']

/-- The name of a reference and the text behind it, from the text after its dollar sign. -/
def read? : List Char → Option (List Char × List Char)
  | '{' :: body =>
    match body.dropWhile (· ≠ '}') with
    | _ :: after => if body.head? = some '}' then none else some (body.takeWhile (· ≠ '}'), after)
    | [] => none
  | _ => none

theorem read?_length {cs name after : List Char} (h : read? cs = some (name, after)) :
    after.length < cs.length := by
  unfold read? at h
  split at h
  · rename_i body
    split at h
    · rename_i hdrop
      have hle := (List.dropWhile_suffix (fun c : Char => decide (c ≠ '}')) (l := body)).length_le
      rw [hdrop] at hle
      split at h
      · simp at h
      · simp only [Option.some.injEq, Prod.mk.injEq] at h
        obtain ⟨_, rfl⟩ := h
        simp only [List.length_cons] at hle ⊢
        omega
    · simp at h
  · simp at h

/-- Replaces the references of a text, from left to right. -/
def substitute (value? : List Char → Option (List Char)) (text : List Char) : List Char :=
  match text with
  | [] => []
  | c :: rest =>
    if c = '$' then
      match _found : read? rest with
      | some (name, after) => (value? name).getD (written name) ++ substitute value? after
      | none => c :: substitute value? rest
    else c :: substitute value? rest
termination_by text.length
decreasing_by
  all_goals simp only [List.length_cons]
  · have := read?_length _found
    omega
  all_goals omega

end Reference

end TemplateTiming
