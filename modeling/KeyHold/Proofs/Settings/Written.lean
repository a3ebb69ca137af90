/-
Settings as they are written are read again.

Writer and reader of a section share its fields, so one law per field is enough: the value that a field writes sets
that field, and nothing else (`Field.Restores`). The modes are written as a mapping of their names, which keeps them and
their order because the names differ; a mode that was accepted is accepted again.

- `Field.read_write`: a section; `Policy.ofData_toData`: a mode; `modesOfData_modesToData`: the modes.
- `Sound`: what settings have that were read from a mapping of modes whose names differ.
- `ofData_toData`: **sound settings are read as they were written**.
-/
import Mathlib.Tactic
import KeyHold.Proofs.Entries
import KeyHold.Proofs.Identical
import KeyHold.Proofs.Settings.Refused

namespace KeyHold

variable {α : Type}

/-! ## Sections -/

namespace Field

variable {fields : List (Field α)} {part : String}

/-- a field writes what it takes, in any section -/
def Restores (f : Field α) : Prop := ∀ x, ∃ change, f.set? (f.get x) = some (.ok change)

theorem int_restores (name : String) (get : α → ℤ) (set : ℤ → α → α) : (Field.int name get set).Restores :=
  fun _ => ⟨_, rfl⟩

theorem real_restores (name : String) (get : α → Float) (set : Float → α → α) :
    (Field.real name get set).Restores :=
  fun _ => ⟨_, rfl⟩

theorem bool_restores (name : String) (get : α → Bool) (set : Bool → α → α) :
    (Field.bool name get set).Restores :=
  fun _ => ⟨_, rfl⟩

theorem text_restores (name : String) (get : α → String) (set : String → α → α) :
    (Field.text name get set).Restores :=
  fun _ => ⟨_, rfl⟩

theorem text?_restores (name : String) (get : α → Option String) (set : Option String → α → α) :
    (Field.text? name get set).Restores := by
  intro x
  unfold text?
  dsimp only
  cases get x with
  | none => exact ⟨_, rfl⟩
  | some s => exact ⟨_, rfl⟩

/-- the section `y` with one field as in `x` -/
def copy (x : α) (y : α) (f : Field α) : α :=
  match f.set? (f.get x) with
  | some (.ok change) => change y
  | _ => y

@[simp] theorem copy_int (name : String) (get : α → ℤ) (set : ℤ → α → α) (x y : α) :
    copy x y (.int name get set) = set (get x) y := rfl

@[simp] theorem copy_real (name : String) (get : α → Float) (set : Float → α → α) (x y : α) :
    copy x y (.real name get set) = set (get x) y := rfl

@[simp] theorem copy_bool (name : String) (get : α → Bool) (set : Bool → α → α) (x y : α) :
    copy x y (.bool name get set) = set (get x) y := rfl

@[simp] theorem copy_text (name : String) (get : α → String) (set : String → α → α) (x y : α) :
    copy x y (.text name get set) = set (get x) y := rfl

@[simp] theorem copy_text? (name : String) (get : α → Option String) (set : Option String → α → α) (x y : α) :
    copy x y (.text? name get set) = set (get x) y := by
  unfold copy text?
  dsimp only
  cases get x with
  | none => rfl
  | some s => rfl

/-- a field is found by its name -/
theorem find?_name (h : (fields.map Field.name).Nodup) {f : Field α} (hf : f ∈ fields) :
    (fields.find? fun g => (Value.str g.name).same (.str f.name)) = some f := by
  simp only [Value.same_str]
  exact find?_of_nodup h hf

theorem setEntry_get (hnames : (fields.map Field.name).Nodup) {f : Field α} (hf : f ∈ fields) (hr : f.Restores)
    (depth : Option ℕ) (x y : α) : setEntry fields part depth y (.str f.name, f.get x) = .ok (copy x y f) := by
  obtain ⟨change, hset⟩ := hr x
  unfold setEntry copy
  rw [find?_name hnames hf]
  dsimp only
  rw [hset]
  rfl

/-- all keys of a written section are known -/
theorem unknownKeys_write (x : α) : unknownKeys fields (fields.map fun f => (.str f.name, f.get x)) = [] := by
  unfold unknownKeys
  rw [List.filter_eq_nil_iff, List.map_map]
  intro k hk
  obtain ⟨f, hf, rfl⟩ := List.mem_map.1 hk
  have hknown : (fields.any fun g => (Value.str g.name).same (.str f.name)) = true :=
    List.any_eq_true.2 ⟨f, hf, by rw [Value.same_str, beq_self_eq_true]⟩
  simpa using hknown

/-- **A section is read from what is written** as the defaults with every field copied. -/
theorem read_write (hnames : (fields.map Field.name).Nodup) (hr : ∀ f ∈ fields, f.Restores) (x defaults : α)
    (depth : Option ℕ) : read fields defaults part (write fields x) depth = .ok (fields.foldl (copy x) defaults) := by
  unfold read write
  dsimp only
  rw [unknownKeys_write]
  dsimp only
  -- the fields still to be read are among all of them
  suffices H : ∀ fs ⊆ fields, ∀ y, (fs.map fun f => (Value.str f.name, f.get x)).foldlM (setEntry fields part depth) y =
      .ok (fs.foldl (copy x) y) from H fields (List.Subset.refl fields) defaults
  intro fs hfs
  induction fs with
  | nil => exact fun _ => rfl
  | cons f fs ih =>
    obtain ⟨hf, hfs⟩ := List.cons_subset.1 hfs
    intro y
    rw [List.map_cons, List.foldlM_cons, setEntry_get hnames hf (hr f hf), List.foldl_cons]
    exact ih hfs (copy x y f)

end Field

theorem EngineConfig.read_write (c : EngineConfig) (depth : Option ℕ) :
    Field.read EngineConfig.fields {} "engine" (Field.write EngineConfig.fields c) depth = .ok c := by
  rw [Field.read_write (by decide)]
  · simp [EngineConfig.fields]
  · simp only [EngineConfig.fields, List.forall_mem_cons, Field.int_restores, Field.real_restores, Field.text_restores,
      true_and]
    exact List.forall_mem_nil _

theorem HidConfig.read_write (c : HidConfig) (depth : Option ℕ) :
    Field.read HidConfig.fields {} "hid" (Field.write HidConfig.fields c) depth = .ok c := by
  rw [Field.read_write (by decide)]
  · simp [HidConfig.fields]
  · simp only [HidConfig.fields, List.forall_mem_cons, Field.int_restores, Field.real_restores, Field.text_restores,
      Field.bool_restores, true_and]
    exact List.forall_mem_nil _

theorem HostConfig.read_write (c : HostConfig) (depth : Option ℕ) :
    Field.read HostConfig.fields {} "host" (Field.write HostConfig.fields c) depth = .ok c := by
  rw [Field.read_write (by decide)]
  · simp [HostConfig.fields]
  · simp only [HostConfig.fields, List.forall_mem_cons, Field.real_restores, Field.bool_restores, true_and]
    exact List.forall_mem_nil _

theorem LogConfig.read_write (c : LogConfig) (depth : Option ℕ) :
    Field.read LogConfig.fields {} "logging" (Field.write LogConfig.fields c) depth = .ok c := by
  rw [Field.read_write (by decide)]
  · simp [LogConfig.fields]
  · simp only [LogConfig.fields, List.forall_mem_cons, Field.text_restores, Field.text?_restores, Field.bool_restores,
      true_and]
    exact List.forall_mem_nil _

/-! ## Modes -/

namespace Policy

/-- no phase is refused -/
def Sound (p : Policy) : Prop := p.phases.findSome? phaseFlaw? = none

theorem make?_inv {name : Value} {phases : List Phase} {key : Value} {depth : Option ℕ} {p : Policy}
    (h : make? name phases key depth = .ok p) : p.name = name ∧ p.phases = phases ∧ p.toggleKey = key ∧ p.Sound := by
  unfold make? at h
  split_ifs at h
  split at h
  · cases h
  next hflaw =>
    obtain rfl := Except.ok.inj h
    exact ⟨rfl, rfl, rfl, hflaw⟩

/-- a mode that is made again from its parts -/
theorem make?_self {p : Policy} (h : p.Sound) (depth : Option ℕ) :
    make? p.name p.phases p.toggleKey depth = .ok p := by
  unfold make?
  rw [dif_neg p.phases_ne_nil, show p.phases.findSome? phaseFlaw? = none from h]

theorem ofData_inv {name data : Value} {room : Room} {p : Policy} (h : ofData name data room = .ok p) :
    p.name = name ∧ p.Sound := by
  cases data with
  | map entries =>
    rw [ofData_map] at h
    obtain ⟨raws, -, h⟩ := ok_of_bind h
    obtain ⟨phases, -, h⟩ := ok_of_bind h
    obtain ⟨hname, -, -, hsound⟩ := make?_inv h
    exact ⟨hname, hsound⟩
  | _ => cases h

theorem phaseOfData_phaseToData (ph : Phase) (depth : Option ℕ) : phaseOfData (phaseToData ph) depth = .ok ph := by
  simp [phaseOfData, phaseToData, Value.field, Value.get?, Value.find?, Value.toReal]
  rfl

theorem mapM_phaseToData (name : Value) (phs : List Phase) (room : Room) :
    (phs.map phaseToData).mapM (fun r => (phaseOfData r room.key).mapError (phaseFault room.mode name r)) =
      .ok phs := by
  induction phs with
  | nil => rfl
  | cons ph phs ih =>
    rw [List.map_cons, List.mapM_cons, ih, phaseOfData_phaseToData]
    rfl

/-- the phases that a mode writes are those that are read of it -/
theorem rawPhases_toData (p : Policy) :
    rawPhases [(.str "toggle_key", p.toggleKey), (.str "phases", .list (p.phases.map phaseToData))] =
      .ok (p.phases.map phaseToData) := by
  have htruthy : (Value.list (p.phases.map phaseToData)).truthy = true := by
    simpa [Value.truthy] using p.phases_ne_nil
  simp [rawPhases, Value.find?, htruthy, Value.items]

/-- **A mode is read from what is written.** -/
theorem ofData_toData {p : Policy} (h : p.Sound) (room : Room) : ofData p.name p.toData room = .ok p := by
  have hkey : Value.find? (.str "toggle_key") [(.str "toggle_key", p.toggleKey),
      (.str "phases", .list (p.phases.map phaseToData))] = some p.toggleKey := by
    simp [Value.find?]
  rw [toData, ofData_map, rawPhases_toData, hkey]
  show (p.phases.map phaseToData).mapM (fun r => (phaseOfData r room.key).mapError (phaseFault room.mode p.name r)) >>=
    _ = _
  rw [mapM_phaseToData]
  exact make?_self h room.table

end Policy

/-! ## Settings -/

namespace Settings

/-- what settings have that were read: they pass their check, and the names of their modes differ -/
structure Sound (S : Settings) : Prop where
  check : S.check = .ok ()
  modes : ∀ p ∈ S.modes, p.Sound
  names : Value.Apart (S.modes.map Policy.name)

/-- settings that pass their check have an interval that is not zero or below, and modes whose toggle keys differ -/
theorem check_inv {S : Settings} (h : S.check = .ok ()) :
    ¬ S.host.scanIntervalMs ≤ 0.0 ∧ S.modes ≠ [] ∧ Value.Apart S.toggleKeys := by
  unfold check at h
  obtain ⟨_, -, h⟩ := ok_of_bind h
  split_ifs at h
  · cases (show Except.error _ = Except.ok () from h)
  · cases (show Except.error _ = Except.ok () from h)
  · cases (show Except.error _ = Except.ok () from h)
  next hmodes hscan =>
    obtain ⟨distinct, hdistinct, h⟩ := ok_of_bind h
    cases distinct with
    | false => cases h
    | true => exact ⟨hscan, fun hnil => hmodes (List.isEmpty_iff.2 hnil), ((allDistinct_iff _).1 hdistinct).2⟩

theorem modesToData_eq {modes : List Policy} (h : Value.Apart (modes.map Policy.name)) :
    modesToData modes = .map (modes.map fun p => (p.name, p.toData)) := by
  unfold modesToData
  rw [Value.foldl_insert modes h]

/-- **The modes are read from what is written**, by name and in their order. -/
theorem modesOfData_modesToData {modes : List Policy} (hmodes : ∀ p ∈ modes, p.Sound)
    (hnames : Value.Apart (modes.map Policy.name)) (room : Room) :
    modesOfData (modesToData modes) room = .ok modes := by
  rw [modesToData_eq hnames]
  show (modes.map fun p => (p.name, p.toData)).mapM (fun m => Policy.ofData m.1 m.2 room) = _
  clear hnames
  induction modes with
  | nil => rfl
  | cons p modes ih =>
    obtain ⟨hp, hmodes⟩ := List.forall_mem_cons.1 hmodes
    rw [List.map_cons, List.mapM_cons, Policy.ofData_toData hp, ih hmodes]
    rfl

/-- **Sound settings are read as they were written**: every section, and every mode with its name, its phases and its
toggle key, in order, however much room there is for writing. -/
theorem ofData_toData {S : Settings} (h : S.Sound) (room : Room) : ofData S.toData room = .ok S := by
  let entries : List (Value × Value) := [
    (.str "engine", Field.write EngineConfig.fields S.engine), (.str "modes", modesToData S.modes),
    (.str "hid", Field.write HidConfig.fields S.hid), (.str "host", Field.write HostConfig.fields S.host),
    (.str "logging", Field.write LogConfig.fields S.logging)]
  have hknown : unknown entries = [] := by simp [unknown, sections, entries]
  have hmodes : part entries "modes" = modesToData S.modes := by simp [part, Value.find?, entries]
  have hengine : part entries "engine" = Field.write EngineConfig.fields S.engine := by
    simp [part, Value.find?, entries]
  have hhid : part entries "hid" = Field.write HidConfig.fields S.hid := by simp [part, Value.find?, entries]
  have hhost : part entries "host" = Field.write HostConfig.fields S.host := by simp [part, Value.find?, entries]
  have hlogging : part entries "logging" = Field.write LogConfig.fields S.logging := by
    simp [part, Value.find?, entries]
  have hread : readSections room entries S.modes = .ok S := by
    unfold readSections
    rw [hengine, hhid, hhost, hlogging, EngineConfig.read_write, HidConfig.read_write, HostConfig.read_write,
      LogConfig.read_write]
    show S.check >>= (fun _ => Except.ok S) = .ok S
    rw [h.check]
    rfl
  show ofEntries entries room = .ok S
  rw [ofEntries_eq, hknown, hmodes]
  dsimp only
  rw [modesOfData_modesToData h.modes h.names]
  show (readSections room entries S.modes).mapError asConfigFault = .ok S
  rw [hread]
  rfl

theorem builtin_sound : ∀ p ∈ Policy.builtin, p.Sound := by
  simp only [Policy.builtin, List.forall_mem_cons]
  refine ⟨?_, ?_, List.forall_mem_nil _⟩
  · unfold Policy.Sound
    decide +kernel
  · unfold Policy.Sound
    decide +kernel

theorem defaults_sound : Sound {} where
  check := by decide +kernel
  modes := builtin_sound
  names := by decide +kernel

/-- an empty mapping stands for the defaults -/
theorem ofData_empty : ofData (.map []) = .ok {} := by
  have hread : readSections {} [] Policy.builtin = .ok {} := by
    show Settings.check {} >>= (fun _ => Except.ok ({} : Settings)) = .ok {}
    rw [defaults_sound.check]
    rfl
  show (readSections {} [] Policy.builtin).mapError asConfigFault = .ok {}
  rw [hread]
  rfl

/-- settings as they are read from the sections, one by one -/
structure ReadFrom (entries : List (Value × Value)) (S : Settings) : Prop where
  modes : modesOfData (part entries "modes") = .ok S.modes
  engine : Field.read EngineConfig.fields {} "engine" (part entries "engine") = .ok S.engine
  hid : Field.read HidConfig.fields {} "hid" (part entries "hid") = .ok S.hid
  host : Field.read HostConfig.fields {} "host" (part entries "host") = .ok S.host
  logging : Field.read LogConfig.fields {} "logging" (part entries "logging") = .ok S.logging

theorem readFrom_of_ofData {entries : List (Value × Value)} {S : Settings} (h : ofData (.map entries) = .ok S) :
    ReadFrom entries S := by
  have h : ofEntries entries = .ok S := h
  rw [ofEntries_eq] at h
  cases hu : unknown entries with
  | cons k ks =>
    rw [hu] at h
    obtain ⟨_, -, h⟩ := ok_of_bind h
    cases h
  | nil =>
    rw [hu] at h
    obtain ⟨modes, hmodes, h⟩ := ok_of_bind h
    have h : readSections {} entries modes = .ok S := ok_of_mapError h
    obtain ⟨engine, hengine, h⟩ := ok_of_bind h
    obtain ⟨hid, hhid, h⟩ := ok_of_bind h
    obtain ⟨host, hhost, h⟩ := ok_of_bind h
    obtain ⟨logging, hlogging, h⟩ := ok_of_bind h
    obtain ⟨_, -, h⟩ := ok_of_bind h
    obtain rfl := Except.ok.inj h
    exact ⟨hmodes, hengine, hhid, hhost, hlogging⟩

theorem mapM_ofData {modes : List (Value × Value)} {ps : List Policy}
    (h : modes.mapM (fun m => Policy.ofData m.1 m.2) = .ok ps) :
    ps.map Policy.name = modes.map (·.1) ∧ ∀ p ∈ ps, p.Sound := by
  have hall := forall₂_of_mapM h
  clear h
  induction hall with
  | nil => exact ⟨rfl, List.forall_mem_nil _⟩
  | cons hp _ ih =>
    obtain ⟨hname, hsound⟩ := Policy.ofData_inv hp
    obtain ⟨hnames, hsounds⟩ := ih
    exact ⟨by rw [List.map_cons, hname, hnames, List.map_cons], List.forall_mem_cons.2 ⟨hsound, hsounds⟩⟩

/-- the names of the modes differ, as the keys of a mapping do -/
def NamesApart (entries : List (Value × Value)) : Prop :=
  ∀ modes, part entries "modes" = .map modes → Value.Apart (modes.map (·.1))

/-- **Settings that are read are sound.** -/
theorem sound_of_ofData {entries : List (Value × Value)} {S : Settings} (h : ofData (.map entries) = .ok S)
    (hnames : NamesApart entries) : S.Sound := by
  have hmodes := (readFrom_of_ofData h).modes
  have hcheck := check_of_ofData h
  cases hpart : part entries "modes" with
  | null =>
    rw [hpart] at hmodes
    have hbuiltin : Policy.builtin = S.modes := Except.ok.inj hmodes
    exact ⟨hcheck, hbuiltin ▸ builtin_sound, hbuiltin ▸ by decide +kernel⟩
  | map modes =>
    rw [hpart] at hmodes
    obtain ⟨heq, hsound⟩ := mapM_ofData hmodes
    exact ⟨hcheck, hsound, heq ▸ hnames modes hpart⟩
  | _ =>
    rw [hpart] at hmodes
    cases hmodes

end Settings
end KeyHold
