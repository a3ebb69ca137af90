/-
What reading settings refuses.

Data that is no good is to be refused with an error of the settings, which says what is wrong with it. Four things get
past this: a section whose name is unknown and no text, phases that cannot be gone through, an integer beyond the
doubles where a real number is read, and a value that is to be refused, or a phase's key, and cannot be written.

- `Field.escapes_read`: what escapes from the reading of a section.
- `Offends`: what is wrong with the data, at the first place where anything is.
- `refused_iff`: **all other data** is read or refused.
- `numberedPhases_escapes`: data that is neither.
- `ofData_unbounded`: what is read is read alike however much room there is for writing.
-/
import Mathlib.Tactic
import KeyHold.Proofs.Settings.Escapes

namespace KeyHold

variable {α : Type}

/-! ## Sections -/

/-- what a section says of a value that it refuses comes to nothing if the value cannot be written -/
theorem Settings.sectionFault_escapes {part : String} {depth : Option ℕ} {v : Value} {text : String → String} :
    Escapes Fault.isTamed
        (.error (Value.quoting depth v fun shown => sectionFault part (text shown)) : Except Fault α) ↔
      ¬ v.Writable depth :=
  Value.escapes_refusal (fun _ h => Value.obstacle?_untamed h) fun _ => rfl

namespace Field

variable {fields : List (Field α)} {part : String} {depth : Option ℕ} {x y : α}

/-- a change of the field faults for integers beyond the doubles only, and only if it takes real numbers -/
def Widens (f : Field α) : Prop :=
  ∀ v, (∃ change, f.set? v = some change ∧ Escapes Fault.isTamed change) ↔ f.kind = "float" ∧ v.TooLarge

/-- a field that takes no real number has no change that faults -/
theorem widens_of_total {f : Field α} (hk : f.kind ≠ "float")
    (h : ∀ v change, f.set? v = some change → ∃ g, change = .ok g) : f.Widens := by
  refine fun v => ⟨?_, fun h => absurd h.1 hk⟩
  rintro ⟨change, hset, hescapes⟩
  obtain ⟨g, rfl⟩ := h v change hset
  exact absurd hescapes not_escapes_ok

theorem int_widens (name : String) (get : α → ℤ) (set : ℤ → α → α) : (Field.int name get set).Widens := by
  refine widens_of_total (by simp [Field.int]) fun v change h => ?_
  cases v <;> first | exact ⟨_, (Option.some.inj h).symm⟩ | cases h

theorem bool_widens (name : String) (get : α → Bool) (set : Bool → α → α) : (Field.bool name get set).Widens := by
  refine widens_of_total (by simp [Field.bool]) fun v change h => ?_
  cases v <;> first | exact ⟨_, (Option.some.inj h).symm⟩ | cases h

theorem text_widens (name : String) (get : α → String) (set : String → α → α) :
    (Field.text name get set).Widens := by
  refine widens_of_total (by simp [Field.text]) fun v change h => ?_
  cases v <;> first | exact ⟨_, (Option.some.inj h).symm⟩ | cases h

theorem text?_widens (name : String) (get : α → Option String) (set : Option String → α → α) :
    (Field.text? name get set).Widens := by
  refine widens_of_total (by simp [Field.text?]) fun v change h => ?_
  cases v <;> first | exact ⟨_, (Option.some.inj h).symm⟩ | cases h

theorem real_widens (name : String) (get : α → Float) (set : Float → α → α) : (Field.real name get set).Widens := by
  intro v
  constructor
  · rintro ⟨change, h, hescapes⟩
    cases v with
    | float x =>
      obtain rfl := Option.some.inj h
      exact absurd hescapes not_escapes_ok
    | int n =>
      obtain rfl := Option.some.inj h
      rw [escapes_map, escapes_toDouble rfl] at hescapes
      exact ⟨rfl, n, rfl, hescapes⟩
    | _ => cases h
  · rintro ⟨-, n, rfl, hn⟩
    exact ⟨(toDouble n).map set, rfl, escapes_map.2 ((escapes_toDouble rfl n).2 hn)⟩

/-- what is wrong with an entry of a section and not refused -/
inductive EntryOffends (fields : List (Field α)) (depth : Option ℕ) (entry : Value × Value) : Prop
  /-- it gives a real field an integer beyond the doubles -/
  | number (f : Field α) (find : (fields.find? fun f => (Value.str f.name).same entry.1) = some f)
      (kind : f.kind = "float") (h : entry.2.TooLarge)
  /-- it gives a field a value that the field does not take, and that cannot be written -/
  | shown (f : Field α) (find : (fields.find? fun f => (Value.str f.name).same entry.1) = some f)
      (refused : f.set? entry.2 = none) (h : ¬ entry.2.Writable depth)

theorem escapes_setEntry (hf : ∀ f ∈ fields, f.Widens) (entry : Value × Value) :
    Escapes Fault.isTamed (setEntry fields part depth x entry) ↔ EntryOffends fields depth entry := by
  unfold setEntry
  cases hfind : fields.find? fun f => (Value.str f.name).same entry.1 with
  | none =>
    refine ⟨fun h => absurd h not_escapes_ok, ?_⟩
    rintro (⟨f, find, -⟩ | ⟨f, find, -⟩)
    all_goals rw [hfind] at find; cases find
  | some f =>
    have hwidens := hf f (List.mem_of_find?_eq_some hfind) entry.2
    dsimp only
    cases hset : f.set? entry.2 with
    | none =>
      dsimp only
      rw [Settings.sectionFault_escapes]
      constructor
      · exact .shown f hfind hset
      · rintro (⟨g, find, kind, h⟩ | ⟨g, find, -, h⟩)
        · -- a field that takes real numbers takes integers
          obtain rfl : f = g := Option.some.inj (hfind.symm.trans find)
          obtain ⟨change, hchange, -⟩ := hwidens.2 ⟨kind, h⟩
          rw [hset] at hchange
          cases hchange
        · exact h
    | some change =>
      dsimp only
      rw [escapes_map]
      constructor
      · intro h
        obtain ⟨kind, hlarge⟩ := hwidens.1 ⟨change, hset, h⟩
        exact .number f hfind kind hlarge
      · rintro (⟨g, find, kind, h⟩ | ⟨g, find, refused, -⟩)
        · obtain rfl : f = g := Option.some.inj (hfind.symm.trans find)
          obtain ⟨change', hchange, h⟩ := hwidens.2 ⟨kind, h⟩
          obtain rfl : change = change' := Option.some.inj (hset.symm.trans hchange)
          exact h
        · obtain rfl : f = g := Option.some.inj (hfind.symm.trans find)
          rw [hset] at refused
          cases refused

/-- whether an entry can be set does not depend on what it is set in -/
theorem setEntry_isOk (entry : Value × Value) :
    (∃ z, setEntry fields part depth x entry = .ok z) ↔ ∃ z, setEntry fields part depth y entry = .ok z := by
  unfold setEntry
  cases fields.find? fun f => (Value.str f.name).same entry.1 with
  | none => exact ⟨fun _ => ⟨y, rfl⟩, fun _ => ⟨x, rfl⟩⟩
  | some f =>
    dsimp only
    cases f.set? entry.2 with
    | none => exact ⟨nofun, nofun⟩
    | some change =>
      cases change with
      | error e => exact ⟨nofun, nofun⟩
      | ok f => exact ⟨fun _ => ⟨f y, rfl⟩, fun _ => ⟨f x, rfl⟩⟩

/-- the section names fields only, and the first entry that cannot be set offends -/
def Offends (fields : List (Field α)) (defaults : α) (part : String) (depth : Option ℕ) (data : Value) : Prop :=
  ∃ pre entry post, data = .map (pre ++ entry :: post) ∧ unknownKeys fields (pre ++ entry :: post) = [] ∧
    (∀ e ∈ pre, ∃ z, setEntry fields part depth defaults e = .ok z) ∧ EntryOffends fields depth entry

theorem escapes_entries (hf : ∀ f ∈ fields, f.Widens) {entries : List (Value × Value)} :
    Escapes Fault.isTamed (entries.foldlM (setEntry fields part depth) x) ↔
      ∃ pre entry post, entries = pre ++ entry :: post ∧
        (∀ e ∈ pre, ∃ z, setEntry fields part depth y e = .ok z) ∧ EntryOffends fields depth entry := by
  induction entries generalizing x with
  | nil =>
    refine ⟨fun h => absurd h not_escapes_ok, ?_⟩
    rintro ⟨pre, entry, post, h, -⟩
    cases pre <;> cases h
  | cons e entries ih =>
    rw [List.foldlM_cons, escapes_bind, escapes_setEntry hf]
    constructor
    · rintro (h | ⟨x', hx', h⟩)
      · exact ⟨[], e, entries, rfl, nofun, h⟩
      · obtain ⟨pre, entry, post, rfl, hpre, h⟩ := ih.1 h
        exact ⟨e :: pre, entry, post, rfl, List.forall_mem_cons.2 ⟨setEntry_isOk e |>.1 ⟨x', hx'⟩, hpre⟩, h⟩
    · rintro ⟨_ | ⟨e', pre⟩, entry, post, hsplit, hpre, h⟩
      · obtain ⟨rfl, rfl⟩ := List.cons.inj hsplit
        exact Or.inl h
      · obtain ⟨rfl, rfl⟩ := List.cons.inj hsplit
        obtain ⟨he, hpre⟩ := List.forall_mem_cons.1 hpre
        obtain ⟨x', hx'⟩ := setEntry_isOk e |>.1 he
        exact Or.inr ⟨x', hx', ih.2 ⟨pre, entry, post, rfl, hpre, h⟩⟩

theorem escapes_read (hf : ∀ f ∈ fields, f.Widens) (defaults : α) (part : String) (data : Value) (depth : Option ℕ) :
    Escapes Fault.isTamed (read fields defaults part data depth) ↔ Offends fields defaults part depth data := by
  have hnot : ∀ {data}, (∀ entries, data ≠ .map entries) → ¬ Offends fields defaults part depth data := by
    rintro data hdata ⟨pre, entry, post, h, -⟩
    exact hdata _ h
  unfold read
  cases data with
  | null => exact ⟨fun h => absurd h not_escapes_ok, fun h => absurd h (hnot nofun)⟩
  | map entries =>
    dsimp only
    split
    next hknown =>
      rw [escapes_entries hf (y := defaults)]
      constructor
      · rintro ⟨pre, entry, post, rfl, hpre, h⟩
        exact ⟨pre, entry, post, rfl, hknown, hpre, h⟩
      · rintro ⟨pre, entry, post, hsplit, -, hpre, h⟩
        exact ⟨pre, entry, post, Value.map.inj hsplit, hpre, h⟩
    next hunknown =>
      constructor
      · intro h
        rcases escapes_bind.1 h with h | ⟨text, -, h⟩
        · exact absurd (h.mono fun e he => by cases e <;> first | rfl | cases he) (Value.not_escapes_listed _)
        · cases escapes_error.1 h
      · rintro ⟨pre, entry, post, hsplit, hknown, -⟩
        rw [Value.map.inj hsplit] at hunknown
        exact absurd hknown hunknown
  | _ => exact ⟨fun h => (by cases escapes_error.1 h), fun h => absurd h (hnot nofun)⟩

end Field

theorem EngineConfig.fields_widen : ∀ f ∈ EngineConfig.fields, f.Widens := by
  simp only [EngineConfig.fields, List.forall_mem_cons, Field.int_widens, Field.real_widens, Field.text_widens,
    true_and]
  exact nofun

theorem HidConfig.fields_widen : ∀ f ∈ HidConfig.fields, f.Widens := by
  simp only [HidConfig.fields, List.forall_mem_cons, Field.int_widens, Field.real_widens, Field.text_widens,
    Field.bool_widens, true_and]
  exact nofun

theorem HostConfig.fields_widen : ∀ f ∈ HostConfig.fields, f.Widens := by
  simp only [HostConfig.fields, List.forall_mem_cons, Field.real_widens, Field.bool_widens, true_and]
  exact nofun

theorem LogConfig.fields_widen : ∀ f ∈ LogConfig.fields, f.Widens := by
  simp only [LogConfig.fields, List.forall_mem_cons, Field.text_widens, Field.text?_widens, Field.bool_widens,
    true_and]
  exact nofun

/-! ## Settings -/

namespace Settings

theorem not_escapes_allDistinct (seen vs : List Value) : ¬ Escapes Fault.isTamed (allDistinct.go seen vs) := by
  induction vs generalizing seen with
  | nil => exact not_escapes_ok
  | cons v vs ih =>
    unfold allDistinct.go
    split_ifs
    · exact fun h => (by cases escapes_error.1 h)
    · rw [escapes_map]
      exact ih seen
    · exact ih (v :: seen)

theorem not_escapes_engine (c : EngineConfig) : ¬ Escapes Fault.isTamed c.check := by
  unfold EngineConfig.check
  split
  · exact fun h => (by cases escapes_error.1 h)
  · exact not_escapes_ok

theorem not_escapes_check (S : Settings) : ¬ Escapes Fault.isTamed S.check := by
  -- a toggle key that cannot be a key is of the wrong kind
  have hkeys : ∀ text, ¬ Escapes Fault.isTamed (allDistinct S.toggleKeys >>= fun distinct =>
      if !distinct then .error (sectionFault "modes" text) else .ok ()) := by
    intro text h
    rcases escapes_bind.1 h with h | ⟨distinct, -, h⟩
    · exact not_escapes_allDistinct [] _ h
    · split_ifs at h
      · cases escapes_error.1 h
      · exact not_escapes_ok h
  unfold check
  rw [escapes_bind]
  rintro (h | ⟨_, -, h⟩)
  · exact not_escapes_engine S.engine h
  split_ifs at h
  · cases escapes_error.1 (show Escapes Fault.isTamed (.error _) from h)
  · cases escapes_error.1 (show Escapes Fault.isTamed (.error _) from h)
  · cases escapes_error.1 (show Escapes Fault.isTamed (.error _) from h)
  · exact hkeys _ h

/-- the section of a name; nothing, if it is missing -/
def part (entries : List (Value × Value)) (name : String) : Value := (Value.find? (.str name) entries).getD .null

/-- the names of sections that are not known -/
def unknown (entries : List (Value × Value)) : List Value :=
  (entries.map (·.1)).filter fun k => !sections.any fun s => (Value.str s).same k

/-- what is wrong with the data, at the first place where anything is, and is not refused with an error of the
settings -/
inductive Offends (room : Room) (entries : List (Value × Value)) : Prop
  /-- a name that is not known and no text -/
  | name (k : Value) (mem : k ∈ unknown entries) (h : ¬ k.IsText)
  /-- a mode; the modes before can be read -/
  | mode (known : unknown entries = []) (pre post : List (Value × Value)) (name body : Value)
      (split : part entries "modes" = .map (pre ++ (name, body) :: post))
      (before : ∀ m ∈ pre, ∃ p, Policy.ofData m.1 m.2 room = .ok p) (h : Policy.Offends room name body)
  /-- an entry of a section; what is read before it can be read -/
  | engine (known : unknown entries = []) (modes : ∃ ps, modesOfData (part entries "modes") room = .ok ps)
      (h : Field.Offends EngineConfig.fields {} "engine" room.field (part entries "engine"))
  | hid (known : unknown entries = []) (modes : ∃ ps, modesOfData (part entries "modes") room = .ok ps)
      (engine : ∃ c, Field.read EngineConfig.fields {} "engine" (part entries "engine") room.field = .ok c)
      (h : Field.Offends HidConfig.fields {} "hid" room.field (part entries "hid"))
  | host (known : unknown entries = []) (modes : ∃ ps, modesOfData (part entries "modes") room = .ok ps)
      (engine : ∃ c, Field.read EngineConfig.fields {} "engine" (part entries "engine") room.field = .ok c)
      (hid : ∃ c, Field.read HidConfig.fields {} "hid" (part entries "hid") room.field = .ok c)
      (h : Field.Offends HostConfig.fields {} "host" room.field (part entries "host"))
  | logging (known : unknown entries = []) (modes : ∃ ps, modesOfData (part entries "modes") room = .ok ps)
      (engine : ∃ c, Field.read EngineConfig.fields {} "engine" (part entries "engine") room.field = .ok c)
      (hid : ∃ c, Field.read HidConfig.fields {} "hid" (part entries "hid") room.field = .ok c)
      (host : ∃ c, Field.read HostConfig.fields {} "host" (part entries "host") room.field = .ok c)
      (h : Field.Offends LogConfig.fields {} "logging" room.field (part entries "logging"))

theorem escapes_modesOfData (room : Room) (data : Value) : Escapes Fault.isConfig (modesOfData data room) ↔
    ∃ pre post name body, data = .map (pre ++ (name, body) :: post) ∧
      (∀ m ∈ pre, ∃ p, Policy.ofData m.1 m.2 room = .ok p) ∧ Policy.Offends room name body := by
  cases data with
  | null => exact ⟨fun h => absurd h not_escapes_ok, fun ⟨_, _, _, _, h, _⟩ => (by cases h)⟩
  | map entries =>
    show Escapes Fault.isConfig (entries.mapM fun m => Policy.ofData m.1 m.2 room) ↔ _
    rw [escapes_mapM]
    simp only [Policy.escapes_ofData]
    constructor
    · rintro ⟨pre, ⟨name, body⟩, post, rfl, hpre, h⟩
      exact ⟨pre, post, name, body, rfl, hpre, h⟩
    · rintro ⟨pre, post, name, body, hsplit, hpre, h⟩
      exact ⟨pre, _, post, Value.map.inj hsplit, hpre, h⟩
  | _ => exact ⟨fun h => (by cases escapes_error.1 h), fun ⟨_, _, _, _, h, _⟩ => (by cases h)⟩

/-- what is read of the sections once the modes are there -/
def readSections (room : Room) (entries : List (Value × Value)) (modes : List Policy) : Except Fault Settings := do
  let settings : Settings :=
    { engine := ← Field.read EngineConfig.fields {} "engine" (part entries "engine") room.field
      modes
      hid := ← Field.read HidConfig.fields {} "hid" (part entries "hid") room.field
      host := ← Field.read HostConfig.fields {} "host" (part entries "host") room.field
      logging := ← Field.read LogConfig.fields {} "logging" (part entries "logging") room.field }
  settings.check
  return settings

theorem ofEntries_eq (entries : List (Value × Value)) (room : Room) : ofEntries entries room =
    match unknown entries with
    | [] => modesOfData (part entries "modes") room >>= fun modes =>
      (readSections room entries modes).mapError asConfigFault
    | _ => Value.listed (unknown entries) >>= fun text => .error (.config ⟨none, "unknown sections: " ++ text⟩) := by
  have hunknown : unknown entries =
      (entries.map (·.1)).filter fun k => !sections.any fun s => (Value.str s).same k := rfl
  unfold ofEntries
  dsimp only
  rw [← hunknown]
  cases unknown entries <;> rfl

theorem escapes_readSections (room : Room) (entries : List (Value × Value)) (modes : List Policy) :
    Escapes Fault.isTamed (readSections room entries modes) ↔
      Field.Offends EngineConfig.fields {} "engine" room.field (part entries "engine") ∨
      (∃ c, Field.read EngineConfig.fields {} "engine" (part entries "engine") room.field = .ok c) ∧
        (Field.Offends HidConfig.fields {} "hid" room.field (part entries "hid") ∨
        (∃ c, Field.read HidConfig.fields {} "hid" (part entries "hid") room.field = .ok c) ∧
          (Field.Offends HostConfig.fields {} "host" room.field (part entries "host") ∨
          (∃ c, Field.read HostConfig.fields {} "host" (part entries "host") room.field = .ok c) ∧
            Field.Offends LogConfig.fields {} "logging" room.field (part entries "logging"))) := by
  unfold readSections
  simp only [escapes_bind, Field.escapes_read EngineConfig.fields_widen, Field.escapes_read HidConfig.fields_widen,
    Field.escapes_read HostConfig.fields_widen, Field.escapes_read LogConfig.fields_widen, not_escapes_check, false_or]
  constructor
  · rintro (h | ⟨engine, he, h | ⟨hid, hh, h | ⟨host, ho, h | ⟨_, -, _, -, h⟩⟩⟩⟩)
    · exact Or.inl h
    · exact Or.inr ⟨⟨engine, he⟩, Or.inl h⟩
    · exact Or.inr ⟨⟨engine, he⟩, Or.inr ⟨⟨hid, hh⟩, Or.inl h⟩⟩
    · exact Or.inr ⟨⟨engine, he⟩, Or.inr ⟨⟨hid, hh⟩, Or.inr ⟨⟨host, ho⟩, h⟩⟩⟩
    · exact absurd h not_escapes_ok
  · rintro (h | ⟨⟨engine, he⟩, h | ⟨⟨hid, hh⟩, h | ⟨⟨host, ho⟩, h⟩⟩⟩)
    · exact Or.inl h
    · exact Or.inr ⟨engine, he, Or.inl h⟩
    · exact Or.inr ⟨engine, he, Or.inr ⟨hid, hh, Or.inl h⟩⟩
    · exact Or.inr ⟨engine, he, Or.inr ⟨hid, hh, Or.inr ⟨host, ho, Or.inl h⟩⟩⟩

theorem escapes_ofEntries (room : Room) (entries : List (Value × Value)) :
    Escapes Fault.isConfig (ofEntries entries room) ↔ Offends room entries := by
  rw [ofEntries_eq]
  cases hu : unknown entries with
  | cons k ks =>
    dsimp only
    rw [escapes_bind, Value.escapes_listed, ← hu]
    constructor
    · rintro (⟨v, hv, h⟩ | ⟨text, -, h⟩)
      · exact .name v hv h
      · cases escapes_error.1 h
    · rintro (⟨v, hv, h⟩ | ⟨known⟩ | ⟨known⟩ | ⟨known⟩ | ⟨known⟩ | ⟨known⟩)
      · exact Or.inl ⟨v, hv, h⟩
      all_goals
        rw [hu] at known
        cases known
  | nil =>
    have htamed : (fun e => Fault.isConfig (asConfigFault e)) = Fault.isTamed := by
      funext e
      cases e <;> rfl
    dsimp only
    simp only [escapes_bind, escapes_mapError, htamed, escapes_modesOfData, escapes_readSections]
    constructor
    · rintro (⟨pre, post, name, body, hsplit, hpre, h⟩ | ⟨ps, hps, h | ⟨he, h | ⟨hh, h | ⟨ho, h⟩⟩⟩⟩)
      · exact .mode hu pre post name body hsplit hpre h
      · exact .engine hu ⟨ps, hps⟩ h
      · exact .hid hu ⟨ps, hps⟩ he h
      · exact .host hu ⟨ps, hps⟩ he hh h
      · exact .logging hu ⟨ps, hps⟩ he hh ho h
    · intro h
      cases h with
      | name v hv h =>
        rw [hu] at hv
        cases hv
      | mode _ pre post name body hsplit hpre h => exact Or.inl ⟨pre, post, name, body, hsplit, hpre, h⟩
      | engine _ hps h => exact Or.inr ⟨hps.choose, hps.choose_spec, Or.inl h⟩
      | hid _ hps he h => exact Or.inr ⟨hps.choose, hps.choose_spec, Or.inr ⟨he, Or.inl h⟩⟩
      | host _ hps he hh h => exact Or.inr ⟨hps.choose, hps.choose_spec, Or.inr ⟨he, Or.inr ⟨hh, Or.inl h⟩⟩⟩
      | logging _ hps he hh ho h =>
        exact Or.inr ⟨hps.choose, hps.choose_spec, Or.inr ⟨he, Or.inr ⟨hh, Or.inr ⟨ho, h⟩⟩⟩⟩

/-- **Data that is no good is refused with an error of the settings**, exactly unless it offends: however much room
there is for writing, any mapping of values is read, or refused in this way, unless a section whose name is unknown is
no text, a mode's phases cannot be gone through, an integer beyond the doubles is read as a real number, or what a
refusal has to show, or a phase's key, cannot be written. -/
theorem refused_iff (room : Room) (entries : List (Value × Value)) :
    ((∃ S, ofData (.map entries) room = .ok S) ∨ ∃ c, ofData (.map entries) room = .error (.config c)) ↔
      ¬ Offends room entries := by
  show ((∃ S, ofEntries entries room = .ok S) ∨ ∃ c, ofEntries entries room = .error (.config c)) ↔ _
  rw [← escapes_ofEntries]
  cases ofEntries entries room with
  | ok S => exact ⟨fun _ => not_escapes_ok, fun _ => Or.inl ⟨S, rfl⟩⟩
  | error e =>
    rw [escapes_error, Bool.not_eq_false]
    constructor
    · rintro (⟨S, h⟩ | ⟨c, h⟩)
      · cases h
      · rw [Except.error.inj h]
        rfl
    · intro h
      cases e with
      | config c => exact Or.inr ⟨c, rfl⟩
      | _ => cases h

instance (P : Fault → Bool) (r : Except Fault α) : Decidable (Escapes P r) :=
  match r with
  | .ok _ => isFalse not_escapes_ok
  | .error e => decidable_of_iff (P e = false) escapes_error.symm

/-- a mode whose phases are a number -/
def numberedPhases : Value := .map [(.str "modes", .map [(.str "m", .map [(.str "phases", .int 5)])])]

/-- **Phases that are a number** are neither read nor refused with an error of the settings. The same goes for a section
whose name is a number, for a floor beyond the doubles, and for a host that is a number of too many digits. -/
theorem numberedPhases_escapes : Escapes Fault.isConfig (ofData numberedPhases) ∧
    Escapes Fault.isConfig (ofData (.map [(.int 5, .null)])) ∧
    Escapes Fault.isConfig (ofData (.map [(.str "engine", .map [(.str "min_hold_ms", .int (10 ^ 400))])])) ∧
    Escapes Fault.isConfig (ofData (.map [(.str "hid", .map [(.str "host", .int (10 ^ 5000))])])) := by
  decide +kernel

end Settings

/-! ## Room -/

theorem Field.setEntry_unbounded {fields : List (Field α)} {part : String} {depth : Option ℕ} {x y : α}
    {entry : Value × Value} (h : setEntry fields part depth x entry = .ok y) :
    setEntry fields part none x entry = .ok y := by
  unfold setEntry at h ⊢
  generalize (fields.find? fun f => (Value.str f.name).same entry.1) = found at h ⊢
  cases found with
  | none => exact h
  | some f =>
    dsimp only at h ⊢
    generalize f.set? entry.2 = taken at h ⊢
    cases taken with
    | none => cases h
    | some change => exact h

theorem Field.read_unbounded {fields : List (Field α)} {defaults x : α} {part : String} {data : Value}
    {depth : Option ℕ} (h : read fields defaults part data depth = .ok x) : read fields defaults part data = .ok x := by
  unfold read at h ⊢
  cases data with
  | null => exact h
  | map entries =>
    dsimp only at h ⊢
    split at h
    · exact foldlM_ok_mono (fun _ _ _ => setEntry_unbounded) h
    · exact h
  | _ => cases h

namespace Policy

theorem phaseOfData_unbounded {raw : Value} {depth : Option ℕ} {ph : Phase} (h : phaseOfData raw depth = .ok ph) :
    phaseOfData raw = .ok ph := by
  unfold phaseOfData at h ⊢
  obtain ⟨key, hkey, h⟩ := ok_of_bind h
  obtain ⟨text, htext, h⟩ := ok_of_bind h
  rw [hkey]
  show key.writePlain? none >>= _ = _
  rw [(Value.writePlain?_unbounded htext).2]
  exact h

theorem make?_unbounded {name key : Value} {phases : List Phase} {depth : Option ℕ} {p : Policy}
    (h : make? name phases key depth = .ok p) : make? name phases key = .ok p := by
  unfold make? at h ⊢
  split_ifs at h ⊢ with hnil
  split at h
  · cases h
  · exact h

theorem ofData_unbounded {name data : Value} {room : Room} {p : Policy} (h : ofData name data room = .ok p) :
    ofData name data = .ok p := by
  cases data with
  | map entries =>
    rw [ofData_map] at h ⊢
    obtain ⟨raws, hraws, h⟩ := ok_of_bind h
    obtain ⟨phases, hphases, h⟩ := ok_of_bind h
    have hread : raws.mapM (fun r => phaseOfData r) = .ok phases := by
      refine mapM_of_forall₂ ((forall₂_of_mapM (mapM_mapError_eq_ok.1 hphases)).imp ?_)
      exact fun _ _ => phaseOfData_unbounded
    rw [hraws]
    show raws.mapM (fun r => (phaseOfData r).mapError (phaseFault none name r)) >>= _ = _
    rw [mapM_mapError_eq_ok.2 hread]
    exact make?_unbounded h
  | _ => cases h

end Policy

namespace Settings

theorem modesOfData_unbounded {data : Value} {room : Room} {ps : List Policy} (h : modesOfData data room = .ok ps) :
    modesOfData data = .ok ps := by
  cases data with
  | null => exact h
  | map entries =>
    replace h : entries.mapM (fun m => Policy.ofData m.1 m.2 room) = .ok ps := h
    show entries.mapM (fun m => Policy.ofData m.1 m.2) = .ok ps
    exact mapM_of_forall₂ ((forall₂_of_mapM h).imp fun _ _ => Policy.ofData_unbounded)
  | _ => cases h

/-- **What is read** is read alike however much room there is for writing: only faults show values. -/
theorem ofData_unbounded {data : Value} {room : Room} {S : Settings} (h : ofData data room = .ok S) :
    ofData data = .ok S := by
  cases data with
  | map entries =>
    replace h : ofEntries entries room = .ok S := h
    show ofEntries entries = .ok S
    rw [ofEntries_eq] at h ⊢
    split at h
    · obtain ⟨modes, hmodes, h⟩ := ok_of_bind h
      obtain ⟨engine, he, h⟩ := ok_of_bind (ok_of_mapError h)
      obtain ⟨hid, hh, h⟩ := ok_of_bind h
      obtain ⟨host, ho, h⟩ := ok_of_bind h
      obtain ⟨logging, hl, h⟩ := ok_of_bind h
      rw [modesOfData_unbounded hmodes]
      refine mapError_eq_ok.2 ?_
      show readSections {} entries modes = .ok S
      unfold readSections
      rw [Field.read_unbounded he, Field.read_unbounded hh, Field.read_unbounded ho, Field.read_unbounded hl]
      exact h
    · exact h
  | _ => cases h

end Settings
end KeyHold
