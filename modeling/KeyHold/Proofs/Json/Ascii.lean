/-
Texts in JSON as bytes.

Whatever a text has in it, what is written for it has nothing but the characters from the blank to the tilde. In UTF-8
each of these is one byte, so bytes below the blank can be put between such texts without being taken for a part of one.

- `plain_line`: **an object of texts on one line** is made of plain characters.
- `plain_bytes`: the bytes of plain characters.
- `fromUTF8_bytes`: the bytes of a text read back as that text.
-/
import Mathlib.Tactic
import KeyHold.Proofs.Json.Texts

namespace KeyHold

/-! ## Bytes -/

/-- the bytes of a text in UTF-8 -/
def Text.bytes (s : String) : List UInt8 := s.toUTF8.data.toList

namespace Text

theorem bytes_eq (s : String) : bytes s = s.toList.flatMap String.utf8EncodeChar := by
  unfold bytes
  rw [String.toUTF8_eq_toByteArray, ← String.utf8Encode_toList]
  exact List.toList_data_toByteArray

theorem bytes_append (s t : String) : bytes (s ++ t) = bytes s ++ bytes t := by
  rw [bytes_eq, bytes_eq, bytes_eq, String.toList_append, List.flatMap_append]

/-- **The bytes of a text** read back as that text. -/
theorem fromUTF8_bytes (s : String) : String.fromUTF8? ⟨(bytes s).toArray⟩ = some s := by
  have hbytes : (⟨(bytes s).toArray⟩ : ByteArray) = s.toByteArray := by
    unfold bytes
    rw [Array.toArray_toList]
    rfl
  rw [hbytes]
  exact dif_pos s.isValidUTF8

/-- a printable character of ASCII -/
def Plain (c : Char) : Prop := 0x20 ≤ c.toNat ∧ c.toNat < 0x7F

instance : DecidablePred Plain := fun c => inferInstanceAs (Decidable (0x20 ≤ c.toNat ∧ c.toNat < 0x7F))

/-- nothing but printable characters of ASCII -/
def AllPlain (cs : List Char) : Prop := ∀ c ∈ cs, Plain c

instance : DecidablePred AllPlain := fun cs => List.decidableBAll Plain cs

theorem allPlain_append {cs ds : List Char} : AllPlain (cs ++ ds) ↔ AllPlain cs ∧ AllPlain ds := List.forall_mem_append

theorem allPlain_cons {c : Char} {cs : List Char} : AllPlain (c :: cs) ↔ Plain c ∧ AllPlain cs := List.forall_mem_cons

theorem utf8_plain {c : Char} (h : Plain c) : String.utf8EncodeChar c = [UInt8.ofNat c.toNat] := by
  unfold String.utf8EncodeChar
  exact if_pos (Nat.le_of_lt_succ (h.2.trans (by decide)))

/-- **Plain characters** are one byte each, from the blank to the tilde. -/
theorem plain_bytes {s : String} (h : AllPlain s.toList) : ∀ b ∈ bytes s, 0x20 ≤ b.toNat ∧ b.toNat < 0x7F := by
  intro b hb
  rw [bytes_eq] at hb
  obtain ⟨c, hc, hb⟩ := List.mem_flatMap.1 hb
  obtain ⟨hlow, hhigh⟩ := h c hc
  rw [utf8_plain (h c hc), List.mem_singleton] at hb
  rw [hb, UInt8.toNat_ofNat', Nat.mod_eq_of_lt (by omega)]
  exact ⟨hlow, hhigh⟩

end Text

/-! ## What is written -/

namespace Json

open Text

theorem plain_digitChar : ∀ d < 16, Plain (Nat.digitChar d) := by decide

theorem plain_ofNat : ∀ n < 0x7F, 0x20 ≤ n → Plain (Char.ofNat n) := by decide

/-- a unit is written in plain characters, whatever it is -/
theorem plain_escapeUnit {n : ℕ} (h : n < 0x10000) : AllPlain (escapeUnit n).toList := by
  unfold escapeUnit
  split_ifs with h1 h2 h3
  · decide
  · decide
  · rw [Char.toString_eq_singleton, String.toList_singleton]
    exact List.forall_mem_singleton.2 (plain_ofNat n h3.2 h3.1)
  · decide
  · decide
  · decide
  · decide
  · decide
  · rw [String.toList_append, allPlain_append, hex_four h]
    have hdigit (k : ℕ) : Plain (Nat.digitChar (k % 16)) := plain_digitChar _ (Nat.mod_lt k (by decide))
    refine ⟨by decide, ?_⟩
    rw [allPlain_cons, allPlain_cons, allPlain_cons]
    exact ⟨plain_digitChar _ (by omega), hdigit _, hdigit _, List.forall_mem_singleton.2 (hdigit _)⟩

theorem plain_string (s : String) : AllPlain (string s).toList := by
  rw [string_toList, allPlain_cons, allPlain_append, escape_toList]
  refine ⟨by decide, fun c hc => ?_, by decide⟩
  obtain ⟨n, hn, hc⟩ := List.mem_flatMap.1 hc
  obtain ⟨d, -, hn⟩ := List.mem_flatMap.1 hn
  exact plain_escapeUnit (units_lt d n hn) c hc

theorem plain_fieldText (f : String × String) : AllPlain (fieldText f).toList := by
  unfold fieldText
  rw [String.toList_append, String.toList_append, allPlain_append, allPlain_append]
  exact ⟨⟨plain_string f.1, by decide⟩, plain_string f.2⟩

/-- what is put between plain items is plain -/
theorem plain_joined {items : List String} (h : ∀ s ∈ items, AllPlain s.toList) :
    AllPlain (joined ", " items).toList := by
  induction items with
  | nil => exact fun c hc => absurd hc (by simp [joined])
  | cons s rest ih =>
    obtain ⟨hs, hrest⟩ := List.forall_mem_cons.1 h
    cases rest with
    | nil => simpa [joined] using hs
    | cons t rest =>
      unfold joined
      rw [String.intercalate_cons_cons, String.toList_append, String.toList_append, allPlain_append, allPlain_append]
      exact ⟨⟨hs, by decide⟩, ih hrest⟩

/-- **An object of texts on one line** is made of plain characters, whatever the texts. -/
theorem plain_line (fs : List (String × String)) : AllPlain (obj (texts fs)).line.toList := by
  rw [line_texts, allPlain_cons, allPlain_append]
  refine ⟨by decide, plain_joined fun s hs => ?_, by decide⟩
  obtain ⟨f, -, rfl⟩ := List.mem_map.1 hs
  exact plain_fieldText f

end Json

end KeyHold
