/-
What a text of settings is made of.

Everything that is written is printable ASCII or a line feed: a plain or single quoted text is written only if it has
no other characters, a double quoted one escapes them, and numerals, dates and bytes have none. So what is written has
no carriage return, and reading line ends of any kind as line feeds does not change it.

- `Shown`: characters that need no escape.
- `Pen.Clean`: what a pen has written is shown; every operation of a pen keeps that.
- `print_shown`: **what is printed is shown**.
-/
import Mathlib.Tactic
import KeyHold.Yaml.Print

namespace KeyHold

namespace Yaml

/-- all characters can be shown without escapes -/
def Shown (cs : List Char) : Prop := ∀ c ∈ cs, isShown c = true

instance (cs : List Char) : Decidable (Shown cs) := List.decidableBAll (fun c => isShown c = true) cs

variable {c : Char} {cs ds : List Char} {s t : String}

@[simp] theorem shown_nil : Shown [] := nofun

@[simp] theorem shown_cons : Shown (c :: cs) ↔ isShown c = true ∧ Shown cs := List.forall_mem_cons

@[simp] theorem shown_append : Shown (cs ++ ds) ↔ Shown cs ∧ Shown ds := List.forall_mem_append

theorem shown_replicate (h : isShown c = true) (n : ℕ) : Shown (List.replicate n c) :=
  fun _ hd => List.eq_of_mem_replicate hd ▸ h

theorem Shown.of_subset (h : Shown ds) (hsub : cs ⊆ ds) : Shown cs := fun c hc => h c (hsub hc)

theorem shown_string_append (hs : Shown s.toList) (ht : Shown t.toList) : Shown (s ++ t).toList := by
  rw [String.toList_append]
  exact shown_append.2 ⟨hs, ht⟩

theorem shown_ofList (h : Shown cs) : Shown (String.ofList cs).toList := by rwa [String.toList_ofList]

theorem shown_toString (h : isShown c = true) : Shown c.toString.toList := by
  rw [Char.toString_eq_singleton, String.toList_singleton]
  exact List.forall_mem_singleton.2 h

/-! ## Numerals -/

theorem shown_digitChar : ∀ d, d < 16 → isShown (Nat.digitChar d) = true := by decide

theorem mem_toDigits {b n : ℕ} (hb : 1 < b) (hc : c ∈ Nat.toDigits b n) : ∃ d, d < b ∧ c = Nat.digitChar d := by
  induction n using Nat.strongRecOn with
  | ind n ih =>
    by_cases hn : n < b
    · rw [Nat.toDigits_of_lt_base hn] at hc
      exact ⟨n, hn, List.mem_singleton.1 hc⟩
    · rw [Nat.toDigits_of_base_le hb (by omega)] at hc
      rcases List.mem_append.1 hc with hc | hc
      · exact ih _ (Nat.div_lt_self (by omega) hb) hc
      · exact ⟨n % b, Nat.mod_lt n (by omega), List.mem_singleton.1 hc⟩

theorem shown_toDigits {b : ℕ} (hb : 1 < b) (h16 : b ≤ 16) (n : ℕ) : Shown (Nat.toDigits b n) := by
  intro c hc
  obtain ⟨d, hd, rfl⟩ := mem_toDigits hb hc
  exact shown_digitChar d (by omega)

theorem shown_hex (width n : ℕ) : Shown (Text.hex width n).toList :=
  shown_ofList (shown_append.2 ⟨shown_replicate (by decide) _, shown_toDigits (by decide) (by decide) n⟩)

theorem shown_nat (n : ℕ) : Shown (toString n).toList := by
  rw [Nat.toString_eq_ofList_toDigits]
  exact shown_ofList (shown_toDigits (by decide) (by decide) n)

theorem shown_padZeros (width n : ℕ) : Shown (padZeros width n).toList :=
  shown_string_append (shown_ofList (shown_replicate (by decide) _)) (shown_nat n)

theorem shown_int (n : ℤ) : Shown (toString n).toList := by
  cases n with
  | ofNat n => exact shown_nat n
  | negSucc n => exact shown_string_append (s := "-") (by decide) (shown_nat (n + 1))

theorem shown_dropTrailingZeros (h : Shown ds) : Shown (Decimal.dropTrailingZeros ds) := by
  have hrest : Shown (ds.reverse.dropWhile (· == '0')).reverse := fun c hc =>
    h c (List.mem_reverse.1 ((List.dropWhile_sublist _).subset (List.mem_reverse.1 hc)))
  unfold Decimal.dropTrailingZeros
  split
  · decide
  · exact hrest

theorem shown_shortest (m : ℕ) (q : ℤ) : Shown (Decimal.shortest m q).digits := by
  unfold Decimal.shortest
  dsimp only
  cases hfound : List.findSome? _ (List.range 17) with
  | none => rw [Option.getD_none]; decide
  | some n =>
    -- the numeral found is one of a scaled number
    obtain ⟨i, -, hi⟩ := List.exists_of_findSome?_eq_some hfound
    obtain ⟨k, -, rfl⟩ := Option.map_eq_some_iff.1 hi
    exact shown_dropTrailingZeros (shown_toDigits (by decide) (by decide) k)

theorem shown_exponentText (e : ℤ) : Shown (Decimal.exponentText e).toList := by
  unfold Decimal.exponentText
  dsimp only
  refine shown_string_append ?_ ?_
  · split_ifs
    · decide
    · decide
  · split_ifs
    · exact shown_string_append (by decide) (shown_nat _)
    · exact shown_nat _

theorem shown_lay (style : Decimal.Style) {n : Decimal.Numeral} (h : Shown n.digits) : Shown (style.lay n).toList := by
  have hpadded : ∀ k j, Shown (n.digits.take k ++ List.replicate j '0') := fun k j =>
    shown_append.2 ⟨h.of_subset (List.take_subset k _), shown_replicate (by decide) j⟩
  have hpoint : Shown (if style.keepPoint then ".0" else "").toList := by
    cases style.keepPoint <;> decide
  unfold Decimal.Style.lay
  dsimp only
  split
  · -- with an exponent
    split
    · exact shown_nil
    next d hd =>
      rw [hd] at h
      exact shown_string_append (shown_toString (h d List.mem_cons_self)) (shown_exponentText _)
    next d rest _ hd =>
      rw [hd, shown_cons] at h
      refine shown_string_append (shown_string_append (shown_string_append ?_ (by decide)) ?_) (shown_exponentText _)
      · exact shown_toString h.1
      · exact shown_ofList h.2
  · split
    · -- below one
      exact shown_string_append (by decide) (shown_ofList (shown_append.2 ⟨shown_replicate (by decide) _, h⟩))
    · split
      · exact shown_string_append (shown_ofList (hpadded _ _)) hpoint
      · refine shown_string_append (shown_string_append (shown_ofList (hpadded _ _)) (by decide)) (shown_ofList ?_)
        exact h.of_subset (List.drop_subset _ _)

theorem shown_decimal (x : Float) : Shown (Decimal.text x).toList := by
  have hsign : ∀ neg, Shown (Decimal.signText neg).toList := by decide
  unfold Decimal.text
  split
  · decide
  · exact shown_string_append (hsign _) (by decide)
  · refine shown_string_append (hsign _) ?_
    split_ifs
    · decide
    · exact shown_lay _ (shown_shortest _ _)

theorem mem_splitAt {sep : Char} {cs part : List Char} (h : part ∈ Text.splitAt sep cs) : part ⊆ cs := by
  induction cs generalizing part with
  | nil =>
    rw [Text.splitAt, List.mem_singleton] at h
    exact h ▸ List.Subset.refl []
  | cons c rest ih =>
    unfold Text.splitAt at h
    split at h
    next hnil => exact absurd hnil (Text.splitAt_ne_nil sep rest)
    next p ps hsplit =>
      rw [hsplit] at ih
      split_ifs at h
      · rcases List.mem_cons.1 h with rfl | h
        · exact List.nil_subset _
        · exact List.subset_cons_of_subset c (ih h)
      · rcases List.mem_cons.1 h with rfl | h
        · exact List.cons_subset_cons c (ih List.mem_cons_self)
        · exact List.subset_cons_of_subset c (ih (List.mem_cons_of_mem p h))

theorem shown_floatText (x : Float) : Shown (floatText x).toList := by
  have hx := shown_decimal x
  unfold floatText
  split_ifs
  · decide
  · decide
  · decide
  · dsimp only
    split
    next digits exponent hsplit =>
      have hparts : ∀ part ∈ [digits, exponent], Shown part := fun part hpart =>
        hx.of_subset (mem_splitAt (hsplit ▸ hpart))
      split_ifs
      · exact hx
      · refine shown_ofList (shown_append.2 ⟨shown_append.2 ⟨hparts digits (by simp), by decide⟩, ?_⟩)
        exact hparts exponent (by simp)
    · exact hx

/-! ## Values that are no collections -/

theorem shown_dateText (d : Date) : Shown (Value.dateText d).toList :=
  shown_string_append (shown_string_append (shown_string_append (shown_string_append (shown_padZeros 4 _) (by decide))
    (shown_padZeros 2 _)) (by decide)) (shown_padZeros 2 _)

theorem shown_offsetText (n : ℤ) : Shown (Value.offsetText n).toList := by
  unfold Value.offsetText
  dsimp only
  refine shown_string_append (shown_string_append (shown_string_append (shown_string_append ?_ (shown_padZeros 2 _))
    (by decide)) (shown_padZeros 2 _)) ?_
  · split <;> decide
  · split
    · decide
    · exact shown_string_append (by decide) (shown_padZeros 2 _)

theorem shown_momentText (t : Moment) : Shown (Value.momentText " " t).toList := by
  have htime : ∀ sep : String, Shown sep.toList → ∀ {s : String} (n : ℕ), Shown s.toList →
      Shown (s ++ sep ++ padZeros 2 n).toList := fun sep hsep s n hs =>
    shown_string_append (shown_string_append hs hsep) (shown_padZeros 2 n)
  unfold Value.momentText
  refine shown_string_append (shown_string_append ?_ ?_) ?_
  · exact htime ":" (by decide) _ (htime ":" (by decide) _ (htime " " (by decide) _ (shown_dateText _)))
  · split
    · decide
    · exact shown_string_append (by decide) (shown_padZeros 6 _)
  · split
    · decide
    · exact shown_offsetText _

theorem shown_join {ss : List String} (h : ∀ s ∈ ss, Shown s.toList) : Shown (String.join ss).toList := by
  rw [String.toList_join]
  intro c hc
  obtain ⟨s, hs, hc⟩ := List.mem_flatMap.1 hc
  exact h s hs c hc

theorem shown_of_toNat (h1 : 32 ≤ c.toNat) (h2 : c.toNat < 127) : isShown c = true := by
  have hlo : ' ' ≤ c := h1
  have hhi : c ≤ '~' := Nat.le_of_lt_succ h2
  simp [isShown, hlo, hhi]

/-- a byte string shows its printable characters and the codes of the others -/
theorem shown_bytesText (bs : List UInt8) : Shown (Value.bytesText bs).toList := by
  have hquote : ∀ cs, isShown (Text.quoteFor cs) = true := by
    intro cs
    unfold Text.quoteFor
    split <;> decide
  unfold Value.bytesText
  dsimp only
  refine shown_string_append (shown_string_append (shown_string_append (by decide) (shown_toString (hquote _)))
    (shown_join ?_)) (shown_toString (hquote _))
  intro s hs
  obtain ⟨c, -, rfl⟩ := List.mem_map.1 hs
  split
  next h =>
    refine shown_string_append (by decide) (shown_toString ?_)
    rcases h with rfl | rfl
    · exact hquote _
    · decide
  split
  · decide
  split
  · decide
  split
  · decide
  split
  next h => exact shown_toString (shown_of_toNat h.1 h.2)
  · exact shown_string_append (by decide) (shown_hex 2 _)

/-- the values that are written on their line as their own text -/
def Inline : Value → Prop
  | .str _ | .list _ | .set _ | .pair .. | .map _ => False
  | _ => True

theorem shown_plainForm : ∀ v : Value, Inline v → Shown (plainForm v).1.toList
  | .null, _ => by decide
  | .bool true, _ | .bool false, _ => by decide
  | .int n, _ => shown_int n
  | .float x, _ => shown_floatText x
  | .date d, _ => shown_dateText d
  | .moment t, _ => shown_momentText t
  | .bytes bs, _ => by
    show Shown (Value.written (.bytes bs)).toList
    rw [Value.written]
    exact shown_bytesText bs

/-! ## Pens -/

namespace Pen

/-- what has been written is shown -/
def Clean (p : Pen) : Prop := Shown p.out.toList

variable {p : Pen}

theorem Clean.write (h : p.Clean) (hs : Shown s.toList) : (p.write s).Clean := shown_string_append h hs

theorem Clean.writeChars (h : p.Clean) (hcs : Shown cs) : (p.writeChars cs).Clean := h.write (shown_ofList hcs)

theorem Clean.newLine (h : p.Clean) : p.newLine.Clean := shown_string_append h (by decide)

theorem Clean.indentTo (h : p.Clean) (column : ℕ) : (p.indentTo column).Clean := by
  unfold Pen.indentTo
  extract_lets q
  have hq : q.Clean := by
    show Clean (if _ then p.newLine else p)
    split
    · exact h.newLine
    · exact h
  split
  · exact hq.writeChars (shown_replicate (by decide) _)
  · exact hq

theorem Clean.indicator (h : p.Clean) (hs : Shown s.toList) (spaced leads : Bool) :
    (p.indicator s spaced leads).Clean := by
  refine h.write ?_
  split
  · exact hs
  · exact shown_string_append (by decide) hs

theorem Clean.dash (h : p.Clean) (indent : ℕ) : (p.dash indent).Clean :=
  (h.indentTo indent).indicator (by decide) true true

theorem Clean.foldTo (h : p.Clean) (indent : ℕ) : (p.foldTo indent).Clean := h.indentTo indent

end Pen

/-! ## Texts -/

variable {p : Pen}

/-- the characters of a run are characters of the text -/
theorem mem_runs {run : List Char} (h : run ∈ runs cs) : run ⊆ cs := by
  induction cs generalizing run with
  | nil => cases h
  | cons c cs ih =>
    unfold runs at h
    split at h
    next d ds rest hruns =>
      rw [hruns] at ih
      have hrest : ∀ run ∈ rest, run ⊆ cs := fun run hrun => ih (List.mem_cons_of_mem _ hrun)
      have hfirst : d :: ds ⊆ cs := ih List.mem_cons_self
      split at h
      · rcases List.mem_cons.1 h with rfl | h
        · exact List.cons_subset_cons c hfirst
        · exact List.subset_cons_of_subset c (hrest run h)
      · rcases List.mem_cons.1 h with rfl | h
        · exact List.cons_subset_cons c (List.nil_subset _)
        · rcases List.mem_cons.1 h with rfl | h
          · exact List.subset_cons_of_subset c hfirst
          · exact List.subset_cons_of_subset c (hrest run h)
    next =>
      rcases List.mem_cons.1 h with rfl | h
      · exact List.cons_subset_cons c (List.nil_subset _)
      · exact List.subset_cons_of_subset c (ih h)

theorem writeRuns_clean {rs : List (List Char)} (hrs : ∀ run ∈ rs, Shown run) (fold : Bool) (indent : ℕ)
    (first : Bool) (h : p.Clean) : (writeRuns fold indent first rs p).Clean := by
  induction rs generalizing first p with
  | nil => exact h
  | cons run rest ih =>
    obtain ⟨hrun, hrest⟩ := List.forall_mem_cons.1 hrs
    refine ih hrest false ?_
    split
    · exact h.foldTo indent
    · exact h.writeChars hrun

theorem writePlain_clean {text : String} (htext : Shown text.toList) (fold : Bool) (indent : ℕ) (h : p.Clean) :
    (writePlain fold indent text p).Clean := by
  have happart : (if p.apart then p else p.write " ").Clean := by
    split
    · exact h
    · exact h.write (by decide)
  exact writeRuns_clean (fun run hrun => htext.of_subset (mem_runs hrun)) fold indent true happart

theorem writeSingleRun_clean {run : List Char} (hrun : Shown run) (indent : ℕ) (h : p.Clean) :
    (writeSingleRun indent run p).Clean := by
  unfold writeSingleRun
  split
  · refine Pen.Clean.indentTo ?_ indent
    -- a line for each break
    have hlines : ∀ (cs : List Char) (p : Pen), p.Clean → (cs.foldl (fun p _ => p.newLine) p).Clean := by
      intro cs
      induction cs with
      | nil => exact fun p hp => hp
      | cons c cs ih => exact fun p hp => ih p.newLine hp.newLine
    exact hlines run _ h.newLine
  · refine h.writeChars fun c hc => ?_
    obtain ⟨d, hd, hc⟩ := List.mem_flatMap.1 hc
    split at hc
    · rcases List.mem_pair.1 hc with rfl | rfl <;> exact hrun _ hd
    · exact List.mem_singleton.1 hc ▸ hrun d hd

theorem writeSingleRuns_clean {rs : List (List Char)} (hrs : ∀ run ∈ rs, Shown run) (fold : Bool) (indent : ℕ)
    (first : Bool) (h : p.Clean) : (writeSingleRuns fold indent first rs p).Clean := by
  induction rs generalizing first p with
  | nil => exact h
  | cons run rest ih =>
    obtain ⟨hrun, hrest⟩ := List.forall_mem_cons.1 hrs
    refine ih hrest false ?_
    split
    · exact h.foldTo indent
    · exact writeSingleRun_clean hrun indent h

theorem writeSingle_clean {text : String} (htext : Shown text.toList) (fold : Bool) (indent : ℕ) (h : p.Clean) :
    (writeSingle fold indent text p).Clean :=
  (writeSingleRuns_clean (fun run hrun => htext.of_subset (mem_runs hrun)) fold indent true
    (h.indicator (by decide) true false)).indicator (by decide) false false

theorem shown_toUpper_digitChar : ∀ d, d < 16 → isShown (Nat.digitChar d).toUpper = true := by decide

theorem shown_upperHex (width n : ℕ) : Shown (upperHex width n).toList := by
  unfold upperHex Text.hex
  dsimp only
  rw [String.toList_ofList, String.toList_ofList, List.map_append, List.map_replicate, shown_append]
  refine ⟨shown_replicate (by decide) _, fun c hc => ?_⟩
  obtain ⟨lower, hlower, rfl⟩ := List.mem_map.1 hc
  obtain ⟨d, hd, rfl⟩ := mem_toDigits (show 1 < 16 by decide) hlower
  exact shown_toUpper_digitChar d hd

theorem shown_letters : ∀ e ∈ escapeLetters, isShown e.2 = true := by decide

theorem shown_escape {e : String} (h : escape? c = some e) : Shown e.toList := by
  unfold escape? at h
  split at h
  next letter hletter =>
    obtain rfl := Option.some.inj h
    obtain ⟨before, after, heq, -⟩ := List.lookup_eq_some_iff.1 hletter
    refine shown_string_append (by decide) (shown_toString (shown_letters (c, letter) ?_))
    rw [heq]
    exact List.mem_append_right _ List.mem_cons_self
  split at h
  · cases h
  split at h
  · obtain rfl := Option.some.inj h
    exact shown_string_append (by decide) (shown_upperHex 2 _)
  split at h
  · obtain rfl := Option.some.inj h
    exact shown_string_append (by decide) (shown_upperHex 4 _)
  · obtain rfl := Option.some.inj h
    exact shown_string_append (by decide) (shown_upperHex 8 _)

/-- a character without an escape is shown as it is -/
theorem shown_of_escape_none (h : escape? c = none) : isShown c = true := by
  unfold escape? at h
  split at h
  · cases h
  split at h
  next hc => simp [isShown, hc.1, hc.2]
  split at h
  · cases h
  split at h <;> cases h

theorem breakEscaped_clean (indent : ℕ) (next : Option Char) (h : p.Clean) : (breakEscaped indent next p).Clean := by
  have hbroken : ((p.write "\\").foldTo indent).Clean := (h.write (by decide)).foldTo indent
  unfold breakEscaped
  dsimp only
  split
  · exact hbroken.write (by decide)
  · exact hbroken

theorem writeEscaped_clean (fold : Bool) (indent : ℕ) (first : Bool) {held : List Char} (hheld : Shown held)
    (h : p.Clean) : (writeEscaped fold indent first held cs p).Clean := by
  have hreverse : ∀ {held : List Char}, Shown held → Shown held.reverse := fun hheld c hc =>
    hheld c (List.mem_reverse.1 hc)
  induction cs generalizing first held p with
  | nil => exact h.writeChars (hreverse hheld)
  | cons c rest ih =>
    have hwritten : (p.writeChars held.reverse).Clean := h.writeChars (hreverse hheld)
    unfold writeEscaped
    dsimp only
    split
    next e he =>
      have hescaped := hwritten.write (shown_escape he)
      refine ih false shown_nil ?_
      split
      · exact breakEscaped_clean indent _ hescaped
      · exact hescaped
    next he =>
      have hc := shown_of_escape_none he
      split
      · exact ih false (shown_cons.2 ⟨hc, shown_nil⟩) (breakEscaped_clean indent _ hwritten)
      · exact ih false (shown_cons.2 ⟨hc, hheld⟩) h

theorem writeDouble_clean (text : String) (fold : Bool) (indent : ℕ) (h : p.Clean) :
    (writeDouble fold indent text p).Clean :=
  (writeEscaped_clean fold indent true shown_nil (h.indicator (by decide) true false)).indicator (by decide) false false

theorem shown_of_plain {inKey : Bool} {text : String} (h : styleOf inKey text = .plain) : Shown text.toList := by
  unfold styleOf at h
  dsimp only at h
  split at h
  next hplain =>
    simp only [allowsPlain, Bool.and_eq_true] at hplain
    exact List.all_eq_true.1 hplain.2.1.1.2
  split at h <;> cases h

theorem shown_of_single {inKey : Bool} {text : String} (h : styleOf inKey text = .single) : Shown text.toList := by
  unfold styleOf at h
  dsimp only at h
  split at h
  · cases h
  split at h
  next hsingle =>
    simp only [allowsSingle, Bool.and_eq_true] at hsingle
    exact List.all_eq_true.1 hsingle.1.2
  · cases h

/-- **A text is written in characters that are shown**, whatever its own are. -/
theorem writeText_clean (inKey : Bool) (indent : ℕ) (text : String) (h : p.Clean) :
    (writeText inKey indent text p).Clean := by
  unfold writeText
  split
  next hstyle => exact writePlain_clean (shown_of_plain hstyle) _ indent h
  next hstyle => exact writeSingle_clean (shown_of_single hstyle) _ indent h
  · exact writeDouble_clean text _ indent h

/-! ## Data -/

mutual

theorem writeValue_clean (inKey underKey : Bool) (indent : ℕ) :
    ∀ (v : Value) (p : Pen), p.Clean → (writeValue inKey underKey indent v p).Clean
  | .list [], p, h | .map [], p, h => by
    rw [writeValue]
    exact (h.indicator (by decide) true false).indicator (by decide) false false
  | .list (x :: xs), p, h => by
    rw [writeValue]
    exact writeItems_clean _ (x :: xs) p h
    nofun
  | .set xs, p, h => by
    rw [writeValue]
    exact writeItems_clean _ xs p h
  | .pair a b, p, h => by
    rw [writeValue]
    exact writeValue_clean false false _ b _ ((writeValue_clean false false _ a _ (h.dash _)).dash _)
  | .map (e :: es), p, h => by
    rw [writeValue]
    exact writeEntries_clean _ (e :: es) p h
    nofun
  | .str s, p, h => by
    rw [writeValue]
    exact writeText_clean inKey _ s h
  | .null, p, h => writePlain_clean (shown_plainForm .null trivial) _ _ h
  | .bool b, p, h => writePlain_clean (shown_plainForm (.bool b) trivial) _ _ h
  | .int n, p, h => writePlain_clean (shown_plainForm (.int n) trivial) _ _ h
  | .float x, p, h => writePlain_clean (shown_plainForm (.float x) trivial) _ _ h
  | .bytes bs, p, h => writePlain_clean (shown_plainForm (.bytes bs) trivial) _ _ h
  | .date d, p, h => writePlain_clean (shown_plainForm (.date d) trivial) _ _ h
  | .moment t, p, h => writePlain_clean (shown_plainForm (.moment t) trivial) _ _ h

theorem writeItems_clean (indent : ℕ) : ∀ (xs : List Value) (p : Pen), p.Clean → (writeItems indent xs p).Clean
  | [], p, h => h
  | x :: xs, p, h => by
    rw [writeItems]
    exact writeItems_clean indent xs _ (writeValue_clean false false indent x _ (h.dash indent))

theorem writeEntries_clean (indent : ℕ) :
    ∀ (es : List (Value × Value)) (p : Pen), p.Clean → (writeEntries indent es p).Clean
  | [], p, h => h
  | (k, v) :: es, p, h => by
    rw [writeEntries]
    refine writeEntries_clean indent es _ (writeValue_clean false true indent v _ ?_)
    split
    · exact (writeValue_clean true true indent k _ (h.indentTo indent)).indicator (by decide) false false
    · exact ((writeValue_clean false true indent k _ ((h.indentTo indent).indicator (by decide) true true)).indentTo
        indent).indicator (by decide) true true

end

/-- **What is printed is shown**: printable ASCII and line feeds. -/
theorem print_shown (entries : List (Value × Value)) : Shown (print entries).toList := by
  unfold print
  split
  · decide
  · exact (writeEntries_clean 0 entries {} shown_nil).indentTo 0

end Yaml
end KeyHold
