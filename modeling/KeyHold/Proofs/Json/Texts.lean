/-
Texts in JSON, read back.

A text is written in ASCII, one escape for each 16-bit unit that is not a plain character, and read unit by unit. The
units of a text determine it, since no character is a surrogate.

- `readString_escape`: what is written for a text reads back as that text, whatever follows its closing quote.
- `read?_texts`: **an object of texts on one line reads back** as that object, also with a line break at its end.
-/
import Mathlib.Data.List.TakeWhile
import Mathlib.Tactic
import KeyHold.Json.Reading

namespace KeyHold.Json

/-! ## Units -/

theorem hexDigit?_digitChar : ∀ d, d < 16 → hexDigit? (Nat.digitChar d) = some d := by decide

/-- a unit in four hexadecimal digits -/
theorem hex_four {n : ℕ} (h : n < 0x10000) : (Text.hex 4 n).toList =
    [Nat.digitChar (n / 4096), Nat.digitChar (n / 256 % 16), Nat.digitChar (n / 16 % 16), Nat.digitChar (n % 16)] := by
  have base : (1 : ℕ) < 16 := by omega
  unfold Text.hex
  rw [String.toList_ofList]
  by_cases h1 : n < 16
  · rw [Nat.toDigits_of_lt_base h1, Nat.div_eq_of_lt (by omega : n < 4096), Nat.div_eq_of_lt (by omega : n < 256),
      Nat.div_eq_of_lt h1, Nat.mod_eq_of_lt h1]
    rfl
  · rw [Nat.toDigits_of_base_le base (by omega)]
    by_cases h2 : n / 16 < 16
    · rw [Nat.toDigits_of_lt_base h2, Nat.div_eq_of_lt (by omega : n < 4096), Nat.div_eq_of_lt (by omega : n < 256),
        Nat.mod_eq_of_lt h2]
      rfl
    · rw [Nat.toDigits_of_base_le base (by omega), Nat.div_div_eq_div_mul]
      by_cases h3 : n / 256 < 16
      · rw [Nat.toDigits_of_lt_base h3, Nat.div_eq_of_lt (by omega : n < 4096), Nat.mod_eq_of_lt h3]
        rfl
      · rw [Nat.toDigits_of_base_le base (by omega), Nat.div_div_eq_div_mul,
          Nat.toDigits_of_lt_base (show n / (16 * 16 * 16) < 16 by omega)]
        rfl

theorem readUnits_hex {n : ℕ} (h : n < 0x10000) (rest : List Char) :
    readUnits ('\\' :: 'u' :: ((Text.hex 4 n).toList ++ rest)) = (readUnits rest).map fun p => (n :: p.1, p.2) := by
  have hn : ((n / 4096 * 16 + n / 256 % 16) * 16 + n / 16 % 16) * 16 + n % 16 = n := by omega
  rw [hex_four h]
  simp only [List.cons_append, List.nil_append, readUnits, hex4?]
  rw [hexDigit?_digitChar _ (by omega), hexDigit?_digitChar _ (by omega), hexDigit?_digitChar _ (by omega),
    hexDigit?_digitChar _ (by omega)]
  simp only [Option.pure_def, Option.bind_eq_bind, Option.bind_some, hn]
  cases readUnits rest <;> rfl

theorem readUnits_letter {c : Char} {n : ℕ} (hc : c ≠ 'u') (hn : letterUnit? c = some n) (rest : List Char) :
    readUnits ('\\' :: c :: rest) = (readUnits rest).map fun p => (n :: p.1, p.2) := by
  rw [readUnits.eq_def]
  split
  · simp_all
  · simp_all
  · simp_all
  · rename_i heq
    cases heq
    rw [hn]
    cases readUnits rest <;> rfl
  · rename_i hx heq
    cases heq
    exact (hx _ _ rfl rfl).elim

theorem readUnits_plain {c : Char} (h1 : c ≠ '"') (h2 : c ≠ '\\') (rest : List Char) :
    readUnits (c :: rest) = (readUnits rest).map fun p => (units c ++ p.1, p.2) := by
  rw [readUnits.eq_def]
  split
  · simp_all
  · simp_all
  · simp_all
  · simp_all
  · rename_i heq
    cases heq
    cases readUnits rest <;> rfl

/-- the characters that stand for themselves -/
theorem units_ascii : ∀ n, n < 0x7F → units (Char.ofNat n) = [n] := by decide

theorem plain_ascii : ∀ n, n < 0x7F → n ≠ 0x22 → n ≠ 0x5C → Char.ofNat n ≠ '"' ∧ Char.ofNat n ≠ '\\' := by decide

theorem readUnits_escapeUnit {n : ℕ} (h : n < 0x10000) (rest : List Char) :
    readUnits ((escapeUnit n).toList ++ rest) = (readUnits rest).map fun p => (n :: p.1, p.2) := by
  unfold escapeUnit
  split_ifs with h1 h2 h3 h4 h5 h6 h7 h8
  · exact h1 ▸ readUnits_letter (by decide) rfl rest
  · exact h2 ▸ readUnits_letter (by decide) rfl rest
  · obtain ⟨hq, hb⟩ := plain_ascii n h3.2 h1 h2
    have hu := readUnits_plain hq hb rest
    rw [units_ascii n h3.2] at hu
    rw [Char.toString_eq_singleton, String.toList_singleton]
    exact hu
  · exact h4 ▸ readUnits_letter (by decide) rfl rest
  · exact h5 ▸ readUnits_letter (by decide) rfl rest
  · exact h6 ▸ readUnits_letter (by decide) rfl rest
  · exact h7 ▸ readUnits_letter (by decide) rfl rest
  · exact h8 ▸ readUnits_letter (by decide) rfl rest
  · have hu : "\\u".toList = ['\\', 'u'] := rfl
    rw [String.toList_append, hu, List.append_assoc, List.cons_append, List.cons_append, List.nil_append]
    exact readUnits_hex h rest

theorem readUnits_quoted (ns : List ℕ) (h : ∀ n ∈ ns, n < 0x10000) (rest : List Char) :
    readUnits (ns.flatMap (fun n => (escapeUnit n).toList) ++ '"' :: rest) = some (ns, rest) := by
  induction ns with
  | nil => rfl
  | cons n ns ih =>
    rw [List.flatMap_cons, List.append_assoc, readUnits_escapeUnit (h n (by simp)), ih fun m hm => h m (by simp [hm])]
    rfl

/-! ## Texts -/

theorem units_lt (c : Char) : ∀ n ∈ units c, n < 0x10000 := by
  intro n hn
  have hc : c.toNat < 0xD800 ∨ (0xDFFF < c.toNat ∧ c.toNat < 0x110000) := c.valid
  unfold units at hn
  dsimp only at hn
  split_ifs at hn with h
  · rw [List.mem_singleton.1 hn]
    exact h
  · rcases List.mem_pair.1 hn with hn | hn <;> omega

/-- a unit that is no surrogate is a character by itself -/
theorem ofUnits_single {n : ℕ} (h : n < 0xD800 ∨ 0xDFFF < n) (rest : List ℕ) :
    ofUnits (n :: rest) = Char.ofNat n :: ofUnits rest := by
  have h1 : isHigh n = false := by
    simp only [isHigh, Bool.and_eq_false_iff, decide_eq_false_iff_not]
    omega
  have h2 : isLow n = false := by
    simp only [isLow, Bool.and_eq_false_iff, decide_eq_false_iff_not]
    omega
  cases rest with
  | nil => simp [ofUnits, h1, h2]
  | cons m rest => simp [ofUnits, h1, h2]

/-- a high and a low surrogate are a character together -/
theorem ofUnits_pair {n : ℕ} (h : n < 0x100000) (rest : List ℕ) :
    ofUnits ((0xD800 + n / 0x400) :: (0xDC00 + n % 0x400) :: rest) = Char.ofNat (0x10000 + n) :: ofUnits rest := by
  have h1 : isHigh (0xD800 + n / 0x400) = true := by
    simp only [isHigh, Bool.and_eq_true, decide_eq_true_eq]
    omega
  have h2 : isLow (0xDC00 + n % 0x400) = true := by
    simp only [isLow, Bool.and_eq_true, decide_eq_true_eq]
    omega
  have hn : 0x10000 + (0xD800 + n / 0x400 - 0xD800) * 0x400 + (0xDC00 + n % 0x400 - 0xDC00) = 0x10000 + n := by omega
  simp only [ofUnits, h1, h2, Bool.and_self, if_true, hn]

/-- the units of a text determine it: no character is a surrogate -/
theorem ofUnits_units (cs : List Char) : ofUnits (cs.flatMap units) = cs := by
  induction cs with
  | nil => rfl
  | cons c cs ih =>
    have hc : c.toNat < 0xD800 ∨ (0xDFFF < c.toNat ∧ c.toNat < 0x110000) := c.valid
    rw [List.flatMap_cons]
    by_cases h : c.toNat < 0x10000
    · have hu : units c = [c.toNat] := if_pos h
      rw [hu, List.singleton_append, ofUnits_single (by omega), Char.ofNat_toNat, ih]
    · have hu : units c = [0xD800 + (c.toNat - 0x10000) / 0x400, 0xDC00 + (c.toNat - 0x10000) % 0x400] := if_neg h
      rw [hu, List.cons_append, List.cons_append, List.nil_append, ofUnits_pair (by omega), ih]
      rw [show 0x10000 + (c.toNat - 0x10000) = c.toNat by omega, Char.ofNat_toNat]

theorem escape_toList (s : String) :
    (escape s).toList = (s.toList.flatMap units).flatMap fun n => (escapeUnit n).toList := by
  rw [escape, String.toList_join, List.flatMap_map]

/-- what is written for a text reads back as that text -/
theorem readString_escape (s : String) (rest : List Char) :
    readString ((escape s).toList ++ '"' :: rest) = some (s, rest) := by
  have hu : ∀ n ∈ s.toList.flatMap units, n < 0x10000 := by
    intro n hn
    obtain ⟨c, -, hc⟩ := List.mem_flatMap.1 hn
    exact units_lt c n hc
  rw [escape_toList, readString, readUnits_quoted _ hu, Option.map_some]
  dsimp only
  rw [ofUnits_units, String.ofList_toList]

/-! ## Objects of texts -/

/-- fields whose values are texts -/
def texts (fs : List (String × String)) : List (String × Json) := fs.map fun (k, s) => (k, str s)

theorem string_toList (s : String) : (string s).toList = '"' :: ((escape s).toList ++ ['"']) := by
  simp [string]

theorem skipGap_of_not {c : Char} (h : isGap c = false) (cs : List Char) : skipGap (c :: cs) = c :: cs := by
  rw [skipGap, List.dropWhile_cons_of_neg]
  simp [h]

theorem skipGap_blank (cs : List Char) : skipGap (' ' :: cs) = skipGap cs := rfl

/-- a text after a blank is read as one value -/
theorem readValue_text (fuel : ℕ) (s : String) (rest : List Char) :
    readValue (fuel + 1) (' ' :: ((string s).toList ++ rest)) = some (str s, rest) := by
  rw [string_toList, List.cons_append, List.append_assoc, List.singleton_append, readValue, skipGap_blank,
    skipGap_of_not rfl]
  simp only [readString_escape, Option.map_some]

/-- a field as it is written -/
def fieldText (f : String × String) : String := string f.1 ++ ": " ++ string f.2

theorem fieldText_toList (f : String × String) (rest : List Char) : (fieldText f).toList ++ rest =
    '"' :: ((escape f.1).toList ++ '"' :: ':' :: ' ' :: ((string f.2).toList ++ rest)) := by
  simp [fieldText, string_toList]

theorem lineFields_texts (fs : List (String × String)) : lineFields (texts fs) = fs.map fieldText := by
  induction fs with
  | nil => rfl
  | cons f fs ih =>
    rw [List.map_cons, ← ih]
    rfl

theorem readFields_last (fuel : ℕ) (f : String × String) (rest : List Char) :
    readFields (fuel + 2) ((fieldText f).toList ++ '\x7d' :: rest) = some (texts [f], rest) := by
  rw [fieldText_toList, readFields, skipGap_of_not rfl]
  simp only [readString_escape, Option.bind_eq_bind, Option.bind_some, skipGap_of_not (show isGap ':' = false from rfl),
    readValue_text, skipGap_of_not (show isGap '\x7d' = false from rfl)]
  rfl

theorem readFields_more (fuel : ℕ) (f : String × String) (rest : List Char) :
    readFields (fuel + 2) ((fieldText f).toList ++ ',' :: ' ' :: rest) =
      (readFields (fuel + 1) rest).map fun p => ((f.1, str f.2) :: p.1, p.2) := by
  have blank : readFields (fuel + 1) (' ' :: rest) = readFields (fuel + 1) rest := by
    rw [readFields, readFields, skipGap_blank]
  rw [fieldText_toList, readFields, skipGap_of_not rfl]
  simp only [readString_escape, Option.bind_eq_bind, Option.bind_some, skipGap_of_not (show isGap ':' = false from rfl),
    readValue_text, skipGap_of_not (show isGap ',' = false from rfl), blank]
  cases readFields (fuel + 1) rest <;> rfl

theorem readFields_texts (f : String × String) (fs : List (String × String)) {fuel : ℕ} (hfuel : fs.length + 2 ≤ fuel)
    (rest : List Char) :
    readFields fuel ((Text.joined ", " ((f :: fs).map fieldText)).toList ++ '\x7d' :: rest) =
      some (texts (f :: fs), rest) := by
  induction fs generalizing f fuel with
  | nil =>
    obtain ⟨n, rfl⟩ := Nat.exists_eq_add_of_le' hfuel
    exact readFields_last n f rest
  | cons g gs ih =>
    obtain ⟨n, rfl⟩ := Nat.exists_eq_add_of_le' hfuel
    have hj : (Text.joined ", " ((f :: g :: gs).map fieldText)).toList ++ '\x7d' :: rest =
        (fieldText f).toList ++ ',' :: ' ' ::
          ((Text.joined ", " ((g :: gs).map fieldText)).toList ++ '\x7d' :: rest) := by
      simp [Text.joined]
    rw [hj, show n + ((g :: gs).length + 2) = n + (g :: gs).length + 2 from rfl, readFields_more, ih g (by simp)]
    rfl

/-- what is written for some fields begins with a quote -/
theorem joined_cons (f : String × String) (fs : List (String × String)) :
    ∃ cs, (Text.joined ", " ((f :: fs).map fieldText)).toList = '"' :: cs := by
  have hf := fieldText_toList f []
  rw [List.append_nil] at hf
  cases fs with
  | nil => exact ⟨_, by simpa [Text.joined] using hf⟩
  | cons g gs =>
    rw [List.map_cons, Text.joined, List.map_cons, String.intercalate_cons_cons, String.toList_append,
      String.toList_append, hf]
    exact ⟨_, rfl⟩

/-- each field takes some room -/
theorem length_le_joined (fs : List (String × String)) :
    fs.length ≤ (Text.joined ", " (fs.map fieldText)).toList.length := by
  induction fs with
  | nil => exact Nat.zero_le _
  | cons f fs ih =>
    cases fs with
    | nil =>
      obtain ⟨cs, hcs⟩ := joined_cons f []
      rw [hcs]
      simp
    | cons g gs =>
      simp only [Text.joined, List.map_cons, String.intercalate_cons_cons, String.toList_append, List.length_append,
        List.length_cons] at ih ⊢
      have : (", " : String).toList.length = 2 := rfl
      omega

theorem line_texts (fs : List (String × String)) :
    (obj (texts fs)).line.toList = '\x7b' :: ((Text.joined ", " (fs.map fieldText)).toList ++ ['\x7d']) := by
  rw [line, lineFields_texts]
  simp

/-- **An object of texts on one line reads back** as that object, whatever blanks and line breaks follow. -/
theorem read?_texts (fs : List (String × String)) {after : String} (ha : ∀ c ∈ after.toList, isGap c = true) :
    read? ((obj (texts fs)).line ++ after) = some (obj (texts fs)) := by
  have hend : skipGap after.toList = [] := List.dropWhile_eq_nil_iff.2 ha
  have hlen := length_le_joined fs
  have hchars : ((obj (texts fs)).line ++ after).toList =
      '\x7b' :: ((Text.joined ", " (fs.map fieldText)).toList ++ '\x7d' :: after.toList) := by
    rw [String.toList_append, line_texts]
    simp
  have hsize : fs.length + 2 ≤ ((obj (texts fs)).line ++ after).length := by
    rw [← String.length_toList, hchars]
    simp only [List.length_cons, List.length_append]
    omega
  have hread : readValue (2 * ((obj (texts fs)).line ++ after).length + 1) ((obj (texts fs)).line ++ after).toList =
      some (obj (texts fs), after.toList) := by
    rw [hchars, readValue, skipGap_of_not rfl]
    cases fs with
    | nil => rfl
    | cons f fs =>
      rw [List.length_cons] at hsize
      have hfields := readFields_texts f fs (show fs.length + 2 ≤ 2 * ((obj (texts (f :: fs))).line ++ after).length by
        omega) after.toList
      obtain ⟨cs, hcs⟩ := joined_cons f fs
      rw [hcs] at hfields ⊢
      simp only [List.cons_append, skipGap_of_not (show isGap '"' = false from rfl)] at hfields ⊢
      exact congrArg (Option.map fun p => (obj p.1, p.2)) hfields
  rw [read?, hread]
  simp only [hend, if_true]

end KeyHold.Json
