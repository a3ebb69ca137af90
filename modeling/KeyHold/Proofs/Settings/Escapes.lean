/-
Faults that escape.

A reader of settings is to fault with an error of the settings, or with a value of the wrong kind, which is made one.
`Escapes P r` says that `r` faults in another way than `P` tells. There is one rule for each way in which readers are
built, and a list is read up to its first fault; so what escapes from a whole reader is found where it first goes wrong.

- `Value.escapes_refusal`: a refusal escapes if it shows a value that cannot be written.
- `Value.escapes_toReal`: only an integer beyond the doubles escapes where a real number is read.
- `Policy.escapes_ofData`: what escapes from the reading of a mode.
- `Value.listed_iff`: only texts are listed.
-/
import Mathlib.Tactic
import KeyHold.Proofs.Settings.Accepted
import KeyHold.Proofs.Writing

namespace KeyHold

variable {α β : Type}

/-! ## Faults that escape -/

/-- `r` faults in a way that `P` does not tell -/
def Escapes (P : Fault → Bool) (r : Except Fault α) : Prop := ∃ e, r = .error e ∧ P e = false

/-- an error of the settings -/
def Fault.isConfig : Fault → Bool
  | .config _ => true
  | _ => false

/-- an error of the settings, or a value of the wrong kind, which is made one -/
def Fault.isTamed : Fault → Bool
  | .config _ => true
  | .wrongKind _ => true
  | _ => false

/-- a value of the wrong kind -/
def Fault.isWrongKind : Fault → Bool
  | .wrongKind _ => true
  | _ => false

section Rules

theorem Escapes.mono {P Q : Fault → Bool} {r : Except Fault α} (h : Escapes Q r)
    (hPQ : ∀ e, P e = true → Q e = true) : Escapes P r := by
  obtain ⟨e, hr, hQ⟩ := h
  refine ⟨e, hr, Bool.eq_false_iff.2 fun hP => ?_⟩
  rw [hPQ e hP] at hQ
  cases hQ

variable {P : Fault → Bool} {r : Except Fault α} {e : Fault}

theorem escapes_error : Escapes P (.error e : Except Fault α) ↔ P e = false := by
  constructor
  · rintro ⟨e', h, hP⟩
    rw [Except.error.inj h]
    exact hP
  · exact fun hP => ⟨e, rfl, hP⟩

theorem not_escapes_ok {a : α} : ¬ Escapes P (.ok a) := by
  rintro ⟨e, h, -⟩
  cases h

theorem escapes_bind {f : α → Except Fault β} :
    Escapes P (r >>= f) ↔ Escapes P r ∨ ∃ a, r = .ok a ∧ Escapes P (f a) := by
  cases r with
  | error e =>
    constructor
    · exact fun h => Or.inl (escapes_error.2 (escapes_error.1 h))
    · rintro (h | ⟨a, h, -⟩)
      · exact escapes_error.2 (escapes_error.1 h)
      · cases h
  | ok a =>
    constructor
    · exact fun h => Or.inr ⟨a, rfl, h⟩
    · rintro (h | ⟨b, h, hb⟩)
      · exact absurd h not_escapes_ok
      · rwa [Except.ok.inj h]

theorem escapes_map {f : α → β} : Escapes P (r.map f) ↔ Escapes P r := by
  cases r with
  | error e =>
    show Escapes P (.error e) ↔ _
    rw [escapes_error, escapes_error]
  | ok a => exact ⟨fun h => absurd h not_escapes_ok, fun h => absurd h not_escapes_ok⟩

/-- what becomes of a fault decides -/
theorem escapes_mapError {f : Fault → Fault} : Escapes P (r.mapError f) ↔ Escapes (fun e => P (f e)) r := by
  cases r with
  | error e =>
    show Escapes P (.error (f e)) ↔ _
    rw [escapes_error, escapes_error]
  | ok a => exact ⟨fun h => absurd h not_escapes_ok, fun h => absurd h not_escapes_ok⟩

/-- a list is read item by item, up to the first fault -/
theorem escapes_mapM {f : α → Except Fault β} {l : List α} :
    Escapes P (l.mapM f) ↔
      ∃ pre a post, l = pre ++ a :: post ∧ (∀ b ∈ pre, ∃ v, f b = .ok v) ∧ Escapes P (f a) := by
  induction l with
  | nil =>
    constructor
    · exact fun h => absurd h not_escapes_ok
    · rintro ⟨pre, a, post, h, -⟩
      cases pre <;> cases h
  | cons x l ih =>
    rw [List.mapM_cons, escapes_bind]
    simp only [escapes_bind, ih]
    constructor
    · rintro (h | ⟨v, hv, ⟨pre, a, post, rfl, hpre, ha⟩ | ⟨vs, -, h⟩⟩)
      · exact ⟨[], x, l, rfl, nofun, h⟩
      · exact ⟨x :: pre, a, post, rfl, List.forall_mem_cons.2 ⟨⟨v, hv⟩, hpre⟩, ha⟩
      · exact absurd h not_escapes_ok
    · rintro ⟨_ | ⟨y, pre⟩, a, post, h, hpre, ha⟩
      · obtain ⟨rfl, rfl⟩ := List.cons.inj h
        exact Or.inl ha
      · obtain ⟨rfl, rfl⟩ := List.cons.inj h
        obtain ⟨⟨v, hv⟩, hpre⟩ := List.forall_mem_cons.1 hpre
        exact Or.inr ⟨v, hv, Or.inl ⟨pre, a, post, rfl, hpre, ha⟩⟩

theorem not_escapes_foldlM {f : β → α → Except Fault β} (hf : ∀ b a, ¬ Escapes P (f b a)) {l : List α} {b : β} :
    ¬ Escapes P (l.foldlM f b) := by
  induction l generalizing b with
  | nil => exact not_escapes_ok
  | cons a l ih =>
    rw [List.foldlM_cons, escapes_bind]
    rintro (h | ⟨b', -, h⟩)
    · exact hf b a h
    · exact ih h

end Rules

/-! ## Values that messages show -/

namespace Value

variable {P : Fault → Bool} {depth : Option ℕ}

/-- what is in the way of writing is told neither as an error of the settings nor as a value of the wrong kind -/
theorem obstacle?_untamed {v : Value} {e : Fault} (h : v.obstacle? depth = some e) : e.isTamed = false := by
  rcases obstacle?_cases v depth e h with rfl | rfl <;> rfl

theorem obstacle?_not_config {v : Value} {e : Fault} (h : v.obstacle? depth = some e) : e.isConfig = false := by
  rcases obstacle?_cases v depth e h with rfl | rfl <;> rfl

/-- a fault that shows a value is what it says it is, unless the value cannot be written -/
theorem escapes_quoting {v : Value} {fault : String → Fault} (hP : ∀ e, v.obstacle? depth = some e → P e = false) :
    Escapes P (.error (quoting depth v fault) : Except Fault α) ↔ ¬ v.Writable depth ∨ P (fault v.written) = false := by
  rw [escapes_error]
  unfold quoting Writable
  cases hv : v.obstacle? depth with
  | none => simp
  | some e => simp [hP e hv]

/-- a refusal that shows a value escapes exactly if the value cannot be written -/
theorem escapes_refusal {v : Value} {fault : String → ConfigError} (hP : ∀ e, v.obstacle? depth = some e → P e = false)
    (hconfig : ∀ c, P (.config c) = true) :
    Escapes P (.error (quoting depth v fun shown => .config (fault shown)) : Except Fault α) ↔ ¬ v.Writable depth := by
  rw [escapes_quoting hP, hconfig]
  simp

end Value

/-! ## Numbers and phases -/

namespace Value

/-- an integer beyond the doubles -/
def TooLarge (v : Value) : Prop := ∃ n, v = .int n ∧ Decimal.ofInt? n = none

end Value

theorem escapes_toDouble {P : Fault → Bool} (hP : P .beyondDoubles = false) (n : ℤ) :
    Escapes P (toDouble n) ↔ Decimal.ofInt? n = none := by
  unfold toDouble
  cases Decimal.ofInt? n with
  | none => exact ⟨fun _ => rfl, fun _ => escapes_error.2 hP⟩
  | some x => exact ⟨fun h => absurd h not_escapes_ok, fun h => by cases h⟩

namespace Value

variable {P : Fault → Bool}

theorem escapes_toReal (hP : P .beyondDoubles = false) (hkind : ∀ text, P (.wrongKind text) = true) (v : Value) :
    Escapes P v.toReal ↔ v.TooLarge := by
  cases v with
  | int n =>
    rw [toReal, escapes_toDouble hP]
    exact ⟨fun h => ⟨n, rfl, h⟩, fun ⟨m, h, hm⟩ => (Value.int.inj h) ▸ hm⟩
  | _ =>
    refine ⟨fun h => ?_, fun ⟨m, h, _⟩ => by cases h⟩
    unfold toReal at h
    dsimp only at h
    repeat' split at h
    all_goals first
      | exact absurd h not_escapes_ok
      | exact absurd (hkind _) (by rw [escapes_error.1 h]; exact Bool.false_ne_true)

theorem not_escapes_field (hkind : ∀ text, P (.wrongKind text) = true) (v : Value) (key : String) :
    ¬ Escapes P (v.field key) := by
  intro h
  unfold field at h
  repeat' split at h
  all_goals first
    | exact absurd h not_escapes_ok
    | exact absurd (hkind _) (by rw [escapes_error.1 h]; exact Bool.false_ne_true)

end Value

/-- a fault for which a phase is refused: a value of the wrong kind, or one that has no text -/
def Fault.isReason : Fault → Bool
  | .wrongKind _ | .badValue _ => true
  | _ => false

/-- a key that is written inside a sentence may be too deep; one with too many digits is a reason to refuse it -/
theorem Value.escapes_writePlain? {P : Fault → Bool} (hdeep : P tooDeep = false)
    (hvalue : ∀ text, P (.badValue text) = true) (v : Value) (depth : Option ℕ) :
    Escapes P (v.writePlain? depth) ↔ v.writePlain? depth = .error tooDeep := by
  constructor
  · rintro ⟨e, h, hescapes⟩
    rcases obstacle?_cases v depth e (writePlain?_eq_error h) with rfl | rfl
    · exact h
    · exact absurd (hvalue _) (by rw [← tooManyDigits, hescapes]; exact Bool.false_ne_true)
  · exact fun h => ⟨tooDeep, h, hdeep⟩

namespace Policy

variable {room : Room} {name raw : Value}

/-- the key of a phase can be written, and an entry that is read as a number is an integer beyond the doubles; the mean
is read first -/
def HugePhase (depth : Option ℕ) (raw : Value) : Prop :=
  ∃ key text mean, raw.field "key" = .ok key ∧ key.writePlain? depth = .ok text ∧ raw.field "mean_ms" = .ok mean ∧
    (mean.TooLarge ∨ (∃ x, mean.toReal = .ok x) ∧ ((raw.get? "stddev_ms").getD (.float 0.0)).TooLarge)

/-- what is wrong with a phase and not refused -/
inductive PhaseOffends (room : Room) (name raw : Value) : Prop
  /-- its key is too deep to be written -/
  | key (v : Value) (field : raw.field "key" = .ok v) (h : v.writePlain? room.key = .error Value.tooDeep)
  /-- a number in it is too large -/
  | number (h : HugePhase room.key raw)
  /-- it is to be refused, and the mode's name or the phase itself, which the refusal shows, cannot be written -/
  | shown (e : Fault) (refused : phaseOfData raw room.key = .error e) (reason : e.isReason = true)
      (h : ¬ (name.Writable room.mode ∧ raw.Writable room.mode))

theorem escapes_phaseOfData {P : Fault → Bool} (hlarge : P .beyondDoubles = false) (hdeep : P Value.tooDeep = false)
    (hreason : ∀ e, e.isReason = true → P e = true) (depth : Option ℕ) (raw : Value) :
    Escapes P (phaseOfData raw depth) ↔
      (∃ v, raw.field "key" = .ok v ∧ v.writePlain? depth = .error Value.tooDeep) ∨ HugePhase depth raw := by
  have hkind : ∀ text, P (.wrongKind text) = true := fun text => hreason _ rfl
  have hvalue : ∀ text, P (.badValue text) = true := fun text => hreason _ rfl
  unfold phaseOfData HugePhase
  simp only [escapes_bind, Value.not_escapes_field hkind, false_or, Value.escapes_toReal hlarge hkind,
    Value.escapes_writePlain? hdeep hvalue]
  constructor
  · rintro ⟨key, hkey, htext | ⟨text, htext, mean, hmean, h | ⟨x, hx, h | ⟨y, -, h⟩⟩⟩⟩
    · exact Or.inl ⟨key, hkey, htext⟩
    · exact Or.inr ⟨key, text, mean, hkey, htext, hmean, Or.inl h⟩
    · exact Or.inr ⟨key, text, mean, hkey, htext, hmean, Or.inr ⟨⟨x, hx⟩, h⟩⟩
    · exact absurd h not_escapes_ok
  · rintro (⟨key, hkey, htext⟩ | ⟨key, text, mean, hkey, htext, hmean, h | ⟨⟨x, hx⟩, h⟩⟩)
    · exact ⟨key, hkey, Or.inl htext⟩
    · exact ⟨key, hkey, Or.inr ⟨text, htext, mean, hmean, Or.inl h⟩⟩
    · exact ⟨key, hkey, Or.inr ⟨text, htext, mean, hmean, Or.inr ⟨x, hx, Or.inl h⟩⟩⟩

theorem escapes_invalidPhase (depth : Option ℕ) (name raw : Value) (reason : String) :
    Escapes Fault.isConfig (.error (invalidPhase depth name raw reason) : Except Fault α) ↔
      ¬ (name.Writable depth ∧ raw.Writable depth) := by
  unfold invalidPhase
  rw [Value.escapes_quoting fun e h => Value.obstacle?_not_config h, ← escapes_error (α := α),
    Value.escapes_refusal (fun e h => Value.obstacle?_not_config h) fun _ => rfl, not_and_or]

/-- what is no reason to refuse a phase stays the fault that it is -/
theorem phaseFault_eq {e : Fault} (h : e.isReason = false) (depth : Option ℕ) (name raw : Value) :
    phaseFault depth name raw e = e := by
  cases e with
  | wrongKind | badValue => cases h
  | _ => rfl

/-- a phase is refused for a reason with an error of the settings, if what the refusal shows can be written -/
theorem phaseFault_isConfig {e : Fault} (h : e.isReason = true) (depth : Option ℕ) (name raw : Value) :
    (phaseFault depth name raw e).isConfig = false ↔ ¬ (name.Writable depth ∧ raw.Writable depth) := by
  cases e with
  | wrongKind text | badValue text =>
    rw [← escapes_invalidPhase (α := Phase) depth name raw text, escapes_error]
    rfl
  | _ => cases h

theorem escapes_phase (room : Room) (name raw : Value) :
    Escapes Fault.isConfig ((phaseOfData raw room.key).mapError (phaseFault room.mode name raw)) ↔
      PhaseOffends room name raw := by
  rw [escapes_mapError]
  constructor
  · rintro ⟨e, hread, hescapes⟩
    cases hreason : e.isReason with
    | true => exact .shown e hread hreason ((phaseFault_isConfig hreason ..).1 hescapes)
    | false =>
      have hphase : Escapes Fault.isReason (phaseOfData raw room.key) := ⟨e, hread, hreason⟩
      rw [escapes_phaseOfData rfl rfl fun _ h => h] at hphase
      rcases hphase with ⟨v, hfield, h⟩ | h
      · exact .key v hfield h
      · exact .number h
  · -- a key that is too deep or a number that is too large is no reason, and no error of the settings
    have hstays : (∃ v, raw.field "key" = .ok v ∧ v.writePlain? room.key = .error Value.tooDeep) ∨
        HugePhase room.key raw →
          Escapes (fun e => (phaseFault room.mode name raw e).isConfig) (phaseOfData raw room.key) := by
      intro h
      rw [← escapes_phaseOfData (P := fun e => e.isConfig || e.isReason) rfl rfl
        fun e h => by rw [h, Bool.or_true]] at h
      obtain ⟨e, hread, he⟩ := h
      obtain ⟨hconfig, hreason⟩ := Bool.or_eq_false_iff.1 he
      refine ⟨e, hread, ?_⟩
      show (phaseFault room.mode name raw e).isConfig = false
      rw [phaseFault_eq hreason]
      exact hconfig
    intro h
    cases h with
    | key v hfield h => exact hstays (Or.inl ⟨v, hfield, h⟩)
    | number h => exact hstays (Or.inr h)
    | shown e hread hreason h => exact ⟨e, hread, (phaseFault_isConfig hreason ..).2 h⟩

/-- the phases of a mode as they are written; what counts as false stands for none -/
def rawPhases (entries : List (Value × Value)) : Except Fault (List Value) :=
  let raw := (Value.find? (.str "phases") entries).getD .null
  if raw.truthy then raw.items else .ok []

/-- a table is refused -/
def Flawed (phases : List Phase) : Prop := phases = [] ∨ ∃ flaw, phases.findSome? phaseFlaw? = some flaw

/-- what is wrong with a mode and not refused -/
inductive Offends (room : Room) (name : Value) : Value → Prop
  /-- it is no mapping, and its name, which the refusal shows, cannot be written -/
  | unnamed (data : Value) (h : ∀ entries, data ≠ .map entries) (hname : ¬ name.Writable room.mode) :
      Offends room name data
  /-- its phases cannot be gone through -/
  | phases (entries : List (Value × Value)) (e : Fault) (h : rawPhases entries = .error e) :
      Offends room name (.map entries)
  /-- the first of its phases that cannot be read offends -/
  | phase (entries : List (Value × Value)) (pre post : List Value) (raw : Value)
      (split : rawPhases entries = .ok (pre ++ raw :: post))
      (before : ∀ b ∈ pre, ∃ ph, phaseOfData b room.key = .ok ph) (h : PhaseOffends room name raw) :
      Offends room name (.map entries)
  /-- its phases can be read, their table is refused, and its name cannot be written -/
  | table (entries : List (Value × Value)) (raws : List Value) (phases : List Phase)
      (found : rawPhases entries = .ok raws) (read : raws.mapM (fun r => phaseOfData r room.key) = .ok phases)
      (h : Flawed phases) (hname : ¬ name.Writable room.table) : Offends room name (.map entries)

theorem escapes_make (depth : Option ℕ) (name : Value) (phases : List Phase) (key : Value) :
    Escapes Fault.isConfig (make? name phases key depth) ↔ Flawed phases ∧ ¬ name.Writable depth := by
  have hflawed : ∀ flaw, Escapes Fault.isConfig (.error (flawed depth name flaw) : Except Fault Policy) ↔
      ¬ name.Writable depth := by
    intro flaw
    exact Value.escapes_refusal (fun e h => Value.obstacle?_not_config h) fun _ => rfl
  unfold make? Flawed
  split_ifs with hnil
  · rw [hflawed, and_iff_right (Or.inl hnil)]
  · rw [or_iff_right hnil]
    cases phases.findSome? phaseFlaw? with
    | some flaw => exact (hflawed flaw).trans (and_iff_right ⟨flaw, rfl⟩).symm
    | none => exact ⟨fun h => absurd h not_escapes_ok, fun ⟨⟨_, h⟩, _⟩ => (by cases h)⟩

theorem escapes_items (raw : Value) : Escapes Fault.isConfig raw.items ↔ ∃ e, raw.items = .error e := by
  refine ⟨fun ⟨e, h, _⟩ => ⟨e, h⟩, fun ⟨e, h⟩ => ⟨e, h, ?_⟩⟩
  cases raw with
  | null | bool _ | int _ | float _ | date _ | moment _ =>
    rw [← Except.error.inj h]
    rfl
  | _ => cases h

theorem escapes_rawPhases (entries : List (Value × Value)) :
    Escapes Fault.isConfig (rawPhases entries) ↔ ∃ e, rawPhases entries = .error e := by
  unfold rawPhases
  dsimp only
  split_ifs
  · exact escapes_items _
  · exact ⟨fun h => absurd h not_escapes_ok, nofun⟩

/-- a mapping is read in three steps: its phases are found, read one by one, and made a table -/
theorem ofData_map (name : Value) (entries : List (Value × Value)) (room : Room) :
    ofData name (.map entries) room = rawPhases entries >>= fun raws =>
      raws.mapM (fun r => (phaseOfData r room.key).mapError (phaseFault room.mode name r)) >>= fun phases =>
        make? name phases ((Value.find? (.str "toggle_key") entries).getD .null) room.table := by
  unfold ofData rawPhases
  dsimp only
  split_ifs <;> rfl

theorem escapes_ofData_map (room : Room) (name : Value) (entries : List (Value × Value)) :
    Escapes Fault.isConfig (ofData name (.map entries) room) ↔ Offends room name (.map entries) := by
  rw [ofData_map]
  simp only [escapes_bind, escapes_mapM, escapes_rawPhases, escapes_phase, mapError_eq_ok, mapM_mapError_eq_ok,
    escapes_make]
  constructor
  · rintro (⟨e, h⟩ | ⟨raws, hraws, ⟨pre, raw, post, rfl, hpre, h⟩ | ⟨phases, hphases, hflawed, hname⟩⟩)
    · exact .phases entries e h
    · exact .phase entries pre post raw hraws hpre h
    · exact .table entries raws phases hraws hphases hflawed hname
  · intro h
    cases h with
    | unnamed _ h _ => exact absurd rfl (h entries)
    | phases _ e h => exact Or.inl ⟨e, h⟩
    | phase _ pre post raw hraws hpre h => exact Or.inr ⟨_, hraws, Or.inl ⟨pre, raw, post, rfl, hpre, h⟩⟩
    | table _ raws phases hraws hphases hflawed hname =>
      exact Or.inr ⟨raws, hraws, Or.inr ⟨phases, hphases, hflawed, hname⟩⟩

theorem escapes_ofData (room : Room) (name data : Value) :
    Escapes Fault.isConfig (ofData name data room) ↔ Offends room name data := by
  have hnot : (∀ entries, data ≠ .map entries) →
      (Escapes Fault.isConfig (ofData name data room) ↔ ¬ name.Writable room.mode) →
      (Escapes Fault.isConfig (ofData name data room) ↔ Offends room name data) := by
    intro hdata hiff
    rw [hiff]
    refine ⟨.unnamed data hdata, ?_⟩
    rintro (⟨-, -, h⟩ | ⟨entries⟩ | ⟨entries⟩ | ⟨entries⟩)
    · exact h
    all_goals exact absurd rfl (hdata entries)
  cases data with
  | map entries => exact escapes_ofData_map room name entries
  | _ => exact hnot nofun (Value.escapes_refusal (fun e h => Value.obstacle?_not_config h) fun _ => rfl)

end Policy

/-! ## Listings -/

namespace Value

def IsText (v : Value) : Prop := ∃ s, v = .str s

theorem insertSorted_mem {v : Value} {ws us : List Value} (h : insertSorted v ws = .ok us) (x : Value) :
    x ∈ us ↔ x = v ∨ x ∈ ws := by
  induction ws generalizing us with
  | nil =>
    obtain rfl := Except.ok.inj h
    simp
  | cons w ws ih =>
    unfold insertSorted at h
    split at h
    · cases h
    · obtain rfl := Except.ok.inj h
      simp
    · cases hr : insertSorted v ws with
      | error e =>
        rw [hr] at h
        cases h
      | ok vs =>
        rw [hr] at h
        obtain rfl := Except.ok.inj h
        simp only [List.mem_cons, ih hr]
        exact or_left_comm

/-- what is sorted is what was there -/
theorem sorted_mem {vs ws us : List Value} (h : vs.foldlM (fun ws v => insertSorted v ws) ws = .ok us) (x : Value) :
    x ∈ us ↔ x ∈ ws ∨ x ∈ vs := by
  induction vs generalizing ws with
  | nil =>
    obtain rfl := Except.ok.inj h
    simp
  | cons v vs ih =>
    rw [List.foldlM_cons] at h
    obtain ⟨ws', hinsert, hrest⟩ := ok_of_bind h
    rw [ih hrest, insertSorted_mem hinsert, List.mem_cons, or_assoc, or_left_comm]

theorem insertSorted_texts {v : Value} {ws : List Value} (hv : v.IsText) (hws : ∀ w ∈ ws, w.IsText) :
    ∃ us, insertSorted v ws = .ok us := by
  obtain ⟨s, rfl⟩ := hv
  induction ws with
  | nil => exact ⟨_, rfl⟩
  | cons w ws ih =>
    obtain ⟨⟨t, rfl⟩, hrest⟩ := List.forall_mem_cons.1 hws
    obtain ⟨us, hus⟩ := ih hrest
    unfold insertSorted
    simp only [before?]
    cases decide (s < t) with
    | true => exact ⟨_, rfl⟩
    | false => exact ⟨str t :: us, by rw [hus]; rfl⟩

theorem sorted_texts {vs ws : List Value} (hvs : ∀ v ∈ vs, v.IsText) (hws : ∀ w ∈ ws, w.IsText) :
    ∃ us, vs.foldlM (fun ws v => insertSorted v ws) ws = .ok us := by
  induction vs generalizing ws with
  | nil => exact ⟨ws, rfl⟩
  | cons v vs ih =>
    obtain ⟨hv, hvs⟩ := List.forall_mem_cons.1 hvs
    obtain ⟨us, hus⟩ := insertSorted_texts hv hws
    rw [List.foldlM_cons, hus]
    refine ih hvs fun w hw => ?_
    rcases (insertSorted_mem hus w).1 hw with rfl | hw
    · exact hv
    · exact hws w hw

theorem joinTexts_check_iff {i : ℕ} {vs : List Value} :
    (∃ texts, joinTexts.check i vs = .ok texts) ↔ ∀ v ∈ vs, v.IsText := by
  induction vs generalizing i with
  | nil => exact ⟨fun _ => nofun, fun _ => ⟨[], rfl⟩⟩
  | cons v vs ih =>
    rw [List.forall_mem_cons, ← @ih (i + 1)]
    cases v with
    | str s =>
      rw [joinTexts.check]
      cases joinTexts.check (i + 1) vs with
      | error e => exact ⟨nofun, fun h => (by cases h.2.choose_spec)⟩
      | ok texts => exact ⟨fun _ => ⟨⟨s, rfl⟩, texts, rfl⟩, fun _ => ⟨s :: texts, rfl⟩⟩
    | _ => exact ⟨nofun, fun h => (by cases h.1.choose_spec)⟩

/-- **Only texts are listed.** -/
theorem listed_iff (vs : List Value) : (∃ text, listed vs = .ok text) ↔ ∀ v ∈ vs, v.IsText := by
  constructor
  · rintro ⟨text, h⟩
    obtain ⟨us, hus, hjoin⟩ := ok_of_bind h
    intro v hv
    have hmem : v ∈ us := (sorted_mem hus v).2 (Or.inr hv)
    unfold joinTexts at hjoin
    cases hcheck : joinTexts.check 0 us with
    | error e =>
      rw [hcheck] at hjoin
      cases hjoin
    | ok texts => exact joinTexts_check_iff.1 ⟨texts, hcheck⟩ v hmem
  · intro h
    have hnone : ∀ w ∈ ([] : List Value), w.IsText := nofun
    obtain ⟨us, hus⟩ := sorted_texts h hnone
    have htexts : ∀ v ∈ us, v.IsText := fun v hv => h v (((sorted_mem hus v).1 hv).resolve_left List.not_mem_nil)
    obtain ⟨texts, hcheck⟩ := (joinTexts_check_iff (i := 0)).2 htexts
    refine ⟨Text.joined ", " texts, ?_⟩
    rw [listed, sorted, hus]
    show (joinTexts.check 0 us).map _ = _
    rw [hcheck]
    rfl

theorem not_escapes_insertSorted (v : Value) (ws : List Value) :
    ¬ Escapes Fault.isWrongKind (insertSorted v ws) := by
  induction ws with
  | nil => exact not_escapes_ok
  | cons w ws ih =>
    unfold insertSorted
    split
    · exact fun h => (by cases escapes_error.1 h)
    · exact not_escapes_ok
    · rwa [escapes_map]

theorem not_escapes_joinTexts_check (i : ℕ) (vs : List Value) :
    ¬ Escapes Fault.isWrongKind (joinTexts.check i vs) := by
  induction vs generalizing i with
  | nil => exact not_escapes_ok
  | cons v vs ih =>
    cases v with
    | str s =>
      rw [joinTexts.check, escapes_map]
      exact ih (i + 1)
    | _ => exact fun h => (by cases escapes_error.1 h)

/-- what cannot be listed is of the wrong kind -/
theorem not_escapes_listed (vs : List Value) : ¬ Escapes Fault.isWrongKind (listed vs) := by
  rw [listed, escapes_bind]
  rintro (h | ⟨us, -, h⟩)
  · exact not_escapes_foldlM (fun ws v => not_escapes_insertSorted v ws) h
  · rw [joinTexts, escapes_map] at h
    exact not_escapes_joinTexts_check 0 us h

theorem escapes_listed (vs : List Value) : Escapes Fault.isConfig (listed vs) ↔ ∃ v ∈ vs, ¬ v.IsText := by
  have hwrong := not_escapes_listed vs
  have hiff := listed_iff vs
  cases hl : listed vs with
  | error e =>
    rw [hl, escapes_error] at hwrong
    rw [hl] at hiff
    have hsome : ∃ v ∈ vs, ¬ v.IsText := by
      by_contra hnone
      push Not at hnone
      obtain ⟨text, h⟩ := hiff.2 hnone
      cases h
    refine ⟨fun _ => hsome, fun _ => escapes_error.2 ?_⟩
    cases e <;> first | rfl | exact absurd rfl hwrong
  | ok text =>
    rw [hl] at hiff
    have htexts := hiff.1 ⟨text, rfl⟩
    exact ⟨fun h => absurd h not_escapes_ok, fun ⟨v, hv, hnot⟩ => absurd (htexts v hv) hnot⟩

end Value

end KeyHold
