import TemplateTiming.Path
import TemplateTiming.Proofs.JsonWriter
import TemplateTiming.Proofs.Report
import TemplateTiming.Proofs.Utf8

/-! The JSON form of a report, read back. The label, the name of the converter and the path are any text at all, quotes
and braces and text that looks like further members among it; none of that leaks out of the string that it stands in,
because the whole text denotes one value only. -/

namespace TemplateTiming

namespace Json

/-- The keys of an object as they stand in the text, repeated ones with them. -/
def keys : Json → List String
  | .object members => members.map fun m => String.ofList m.1
  | _ => []

/-- The first value under a key. -/
def member? (v : Json) (key : String) : Option Json :=
  match v with
  | .object members => (members.find? fun m => String.ofList m.1 = key).map (·.2)
  | _ => none

def stringAt? (v : Json) (key : String) : Option String :=
  match v.member? key with
  | some (.string s) => some (String.ofList s)
  | _ => none

/-- The number under a key, if it is written in digits alone. -/
def naturalAt? (v : Json) (key : String) : Option Nat :=
  match v.member? key with
  | some (.number literal) => if literal.all Decimal.isDigit then some (Decimal.value literal) else none
  | _ => none

/-- The number under a key, as it is written. -/
def literalAt? (v : Json) (key : String) : Option (List Char) :=
  match v.member? key with
  | some (.number literal) => some literal
  | _ => none

end Json

theorem Duration.milliseconds_below (d : Duration) : d.milliseconds.Below (2 ^ 79) := by
  have hthousand := Binary64.ofNat_below (le_refl 1000) (by decide)
  exact (Binary64.mul_below d.toBinary64_below hthousand (by decide)).mono (by decide)

namespace Report

/-- The members of the JSON form as values. -/
def values (r : Report) (mean : Duration) : List (List Char × Json) :=
  [("label".toList, .string r.label.toList),
    ("converter".toList, .string r.converter.toList),
    ("input".toList, .string (Utf8.lossy r.input.octets)),
    ("input_bytes".toList, .number (Decimal.digits r.inputBytes)),
    ("iterations".toList, .number (Decimal.digits r.iterations.toNat)),
    ("warmup".toList, .number (Decimal.digits r.warmup.toNat)),
    ("started_at".toList, .string r.startedAt.text),
    ("elapsed_ms".toList, .number (Json.writeBinary64 r.elapsedMs)),
    ("mean_iteration_ms".toList, .number (Json.writeBinary64 mean.milliseconds))]

/-- What the JSON form of a report has to say. -/
structure Told (r : Report) (value : Json) : Prop where
  keys : value.keys = ["label", "converter", "input", "input_bytes", "iterations", "warmup", "started_at",
    "elapsed_ms", "mean_iteration_ms"]
  label : value.stringAt? "label" = some r.label
  converter : value.stringAt? "converter" = some r.converter
  input : value.stringAt? "input" = some r.input.shown
  unicode_input : ∀ s, r.input = .ofString s → value.stringAt? "input" = some s
  inputBytes : value.naturalAt? "input_bytes" = some r.inputBytes
  iterations : value.naturalAt? "iterations" = some r.iterations.toNat
  warmup : value.naturalAt? "warmup" = some r.warmup.toNat

theorem digits_plain {n : Nat} (hn : n < UInt64.size) : Json.Plain (Decimal.digits n) (.number (Decimal.digits n)) := by
  have hplain := (Json.Numeral.ofNat_modest hn).plain
  rwa [Json.Numeral.ofNat_text] at hplain

theorem binary64_plain {x : Binary64} (hx : x.Below (2 ^ 79)) :
    Json.Plain (Json.writeBinary64 x) (.number (Json.writeBinary64 x)) := by
  obtain ⟨n, htext, hmodest⟩ := Json.writeBinary64_numeral hx
  rw [← htext]
  exact hmodest.plain

theorem elapsedMs_below (r : Report) : r.elapsedMs.Below (2 ^ 79) := r.elapsed.milliseconds_below

theorem members_plain (r : Report) (hbytes : r.inputBytes < UInt64.size) (mean : Duration) :
    List.Forall₂ Json.PlainMember (r.members mean) (r.values mean) := by
  have hstring := Json.writeString_plain
  have hbytes := digits_plain hbytes
  have hiterations := digits_plain r.iterations.toNat_lt
  have hwarmup := digits_plain r.warmup.toNat_lt
  have helapsed := binary64_plain r.elapsedMs_below
  have hmean := binary64_plain mean.milliseconds_below
  exact .cons ((hstring _).member _) <| .cons ((hstring _).member _) <| .cons ((hstring _).member _) <|
    .cons (hbytes.member _) <| .cons (hiterations.member _) <| .cons (hwarmup.member _) <|
    .cons ((hstring _).member _) <| .cons (helapsed.member _) <| .cons (hmean.member _) .nil

theorem digits_all (n : Nat) : (Decimal.digits n).all Decimal.isDigit = true :=
  List.all_eq_true.mpr fun _ hd => Decimal.isDigit_of_mem_digits hd

theorem values_told (r : Report) (mean : Duration) : r.Told (.object (r.values mean)) where
  keys := by simp [Json.keys, values]
  label := by simp [Json.stringAt?, Json.member?, values]
  converter := by simp [Json.stringAt?, Json.member?, values]
  input := by simp [Json.stringAt?, Json.member?, values, Path.shown]
  unicode_input := by
    intro s hs
    simp [Json.stringAt?, Json.member?, values, hs, Path.ofString, Utf8.lossy_encode]
  inputBytes := by simp [Json.naturalAt?, Json.member?, values, digits_all, Decimal.value_digits]
  iterations := by simp [Json.naturalAt?, Json.member?, values, digits_all, Decimal.value_digits]
  warmup := by simp [Json.naturalAt?, Json.member?, values, digits_all, Decimal.value_digits]

/-- **The JSON form of a report reads back.** It is one line without characters below U+0020, the grammar allows one
reading of it, the reader finds that one, and it says what the report holds. -/
theorem json_reads_back (r : Report) (hbytes : r.inputBytes < UInt64.size) :
    ∃ text value, r.render .json = .ok text ∧ (∀ c ∈ text.toList, 0x20 ≤ c.toNat) ∧
      (∀ v, Json.Denotes text.toList v ↔ v = value) ∧ Json.parse text.toList = .ok value ∧ r.Told value := by
  obtain ⟨mean, hmean⟩ := r.meanIteration?_isSome
  obtain ⟨hprintable, hdenotes, hparse⟩ := Json.writeObject_parse (r.members_plain hbytes mean)
  refine ⟨String.ofList (Json.writeObject (r.members mean)), .object (r.values mean), by rw [render, hmean], ?_⟩
  rw [String.toList_ofList]
  exact ⟨hprintable, hdenotes, hparse, r.values_told mean⟩

/-- A report whose label looks like further members, and whose path is not UTF-8. -/
def imitating : Report where
  label := "a\",\"iterations\":0,\"label\":\"b\\\n"
  converter := "\"\""
  input := ⟨[0x22, 0x2C, 0xFF]⟩
  inputBytes := 3
  iterations := 5
  warmup := 1
  elapsed := .zero
  startedAt := .epoch

theorem json_reads_back_imitating : imitating.inputBytes < UInt64.size ∧
    ∃ text value, imitating.render .json = .ok text ∧ Json.parse text.toList = .ok value ∧
      value.stringAt? "label" = some "a\",\"iterations\":0,\"label\":\"b\\\n" ∧
      value.stringAt? "input" = some "\",\ufffd" ∧ value.naturalAt? "iterations" = some 5 := by
  refine ⟨by decide, ?_⟩
  obtain ⟨text, value, hrender, -, -, hparse, htold⟩ := json_reads_back imitating (by decide)
  exact ⟨text, value, hrender, hparse, htold.label, htold.input.trans (by decide), htold.iterations⟩

end Report

end TemplateTiming
