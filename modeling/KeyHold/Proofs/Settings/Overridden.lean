/-
What accepted settings hold.

A section is read as its defaults with the values that are given in place of them. A field keeps a value as it is given,
or widens an integer where it holds a real number, and leaves the other fields as they are; so each entry of a mapping
tells what its field holds in the end, as long as no key stands there twice. The bounds are spread over the checks of
the engine, of the phases of each mode, and of the settings as a whole; what is accepted has passed all of them.

- `Field.Takes`: what a field holds after a value is given to it; `Field.Lawful`: it holds that, and the others are left.
- `Field.read_overrides`: **a section that is read** is its defaults, overridden.
- `accepted_valid`: **settings that are accepted** are the defaults overridden, and within all bounds.
-/
import Mathlib.Tactic
import KeyHold.Proofs.Settings.Written

namespace KeyHold

variable {α : Type}

namespace Field

/-! ## Fields -/

/-- the fields that may hold nothing -/
def optional : List String := ["log_dir"]

theorem mem_optional : "log_dir" ∈ optional := List.mem_singleton.2 rfl

/-- a field that is given a value then holds one: the same, or an integer as a double -/
inductive Takes (f : Field α) : Value → Value → Prop
  | int (n : ℤ) (kind : f.kind = "int") : Takes f (.int n) (.int n)
  | float (x : Float) (kind : f.kind = "float") : Takes f (.float x) (.float x)
  | widened (n : ℤ) (x : Float) (kind : f.kind = "float") (wide : toDouble n = .ok x) : Takes f (.int n) (.float x)
  | bool (b : Bool) (kind : f.kind = "bool") : Takes f (.bool b) (.bool b)
  | text (s : String) (kind : f.kind = "str") : Takes f (.str s) (.str s)
  | nothing (kind : f.kind = "str") (mayBe : f.name ∈ optional) : Takes f .null .null

/-- a field of numbers takes neither truth values nor texts -/
theorem Takes.number {f : Field α} {v kept : Value} (h : f.Takes v kept) (hf : f.kind = "int" ∨ f.kind = "float") :
    (∃ n, v = .int n) ∨ ∃ x, v = .float x := by
  cases h with
  | int n => exact Or.inl ⟨n, rfl⟩
  | float x => exact Or.inr ⟨x, rfl⟩
  | widened n => exact Or.inl ⟨n, rfl⟩
  | bool b kind => rcases hf with hf | hf <;> exact absurd (kind.symm.trans hf) (by decide)
  | text s kind => rcases hf with hf | hf <;> exact absurd (kind.symm.trans hf) (by decide)
  | nothing kind => rcases hf with hf | hf <;> exact absurd (kind.symm.trans hf) (by decide)

/-- a change leaves the fields of other names as they are -/
def Spares (fields : List (Field α)) (name : String) (change : α → α) : Prop :=
  ∀ f ∈ fields, f.name ≠ name → ∀ x, f.get (change x) = f.get x

theorem spares_nil {name : String} {change : α → α} : Spares [] name change := List.forall_mem_nil _

theorem spares_cons {name : String} {change : α → α} {f : Field α} {fields : List (Field α)} :
    Spares (f :: fields) name change ↔
      (f.name ≠ name → ∀ x, f.get (change x) = f.get x) ∧ Spares fields name change :=
  List.forall_mem_cons

/-- a field holds what it takes, and the other fields of the section are left as they are -/
structure Lawful (fields : List (Field α)) (f : Field α) : Prop where
  takes : ∀ v change, f.set? v = some (.ok change) → ∀ x, f.Takes v (f.get (change x))
  spares : ∀ v change, f.set? v = some (.ok change) → Spares fields f.name change

variable {fields : List (Field α)} {name : String}

@[simp] theorem name_int (get : α → ℤ) (set : ℤ → α → α) : (Field.int name get set).name = name := rfl

@[simp] theorem name_real (get : α → Float) (set : Float → α → α) : (Field.real name get set).name = name := rfl

@[simp] theorem name_bool (get : α → Bool) (set : Bool → α → α) : (Field.bool name get set).name = name := rfl

@[simp] theorem name_text (get : α → String) (set : String → α → α) : (Field.text name get set).name = name := rfl

@[simp] theorem name_text? (get : α → Option String) (set : Option String → α → α) :
    (Field.text? name get set).name = name := rfl

@[simp] theorem get_int (get : α → ℤ) (set : ℤ → α → α) (x : α) : (Field.int name get set).get x = .int (get x) := rfl

@[simp] theorem get_real (get : α → Float) (set : Float → α → α) (x : α) :
    (Field.real name get set).get x = .float (get x) := rfl

@[simp] theorem get_bool (get : α → Bool) (set : Bool → α → α) (x : α) :
    (Field.bool name get set).get x = .bool (get x) := rfl

@[simp] theorem get_text (get : α → String) (set : String → α → α) (x : α) :
    (Field.text name get set).get x = .str (get x) := rfl

@[simp] theorem get_text? (get : α → Option String) (set : Option String → α → α) (x : α) :
    (Field.text? name get set).get x = (get x).elim .null .str := by
  unfold text?
  dsimp only
  cases get x with
  | none => rfl
  | some s => rfl

/-- a field whose changes set one part, which it holds then, is lawful -/
theorem lawful_of_sets {β : Type} {f : Field α} {set : β → α → α} (hset : ∀ b, Spares fields f.name (set b))
    (h : ∀ v change, f.set? v = some (.ok change) → ∃ b, change = set b ∧ ∀ x, f.Takes v (f.get (set b x))) :
    Lawful fields f := by
  constructor
  · intro v change hv
    obtain ⟨b, rfl, htakes⟩ := h v change hv
    exact htakes
  · intro v change hv
    obtain ⟨b, rfl, -⟩ := h v change hv
    exact hset b

theorem int_lawful {get : α → ℤ} {set : ℤ → α → α} (hget : ∀ n x, get (set n x) = n)
    (hset : ∀ n, Spares fields name (set n)) : Lawful fields (.int name get set) := by
  refine lawful_of_sets hset fun v change h => ?_
  cases v with
  | int n =>
    cases h
    refine ⟨n, rfl, fun x => ?_⟩
    rw [get_int, hget]
    exact .int n rfl
  | _ => cases h

theorem real_lawful {get : α → Float} {set : Float → α → α} (hget : ∀ y x, get (set y x) = y)
    (hset : ∀ y, Spares fields name (set y)) : Lawful fields (.real name get set) := by
  refine lawful_of_sets hset fun v change h => ?_
  cases v with
  | float y =>
    cases h
    refine ⟨y, rfl, fun x => ?_⟩
    rw [get_real, hget]
    exact .float y rfl
  | int n =>
    have h : (toDouble n).map set = .ok change := Option.some.inj h
    cases hn : toDouble n with
    | error e =>
      rw [hn] at h
      cases h
    | ok y =>
      rw [hn] at h
      cases h
      refine ⟨y, rfl, fun x => ?_⟩
      rw [get_real, hget]
      exact .widened n y rfl hn
  | _ => cases h

theorem bool_lawful {get : α → Bool} {set : Bool → α → α} (hget : ∀ b x, get (set b x) = b)
    (hset : ∀ b, Spares fields name (set b)) : Lawful fields (.bool name get set) := by
  refine lawful_of_sets hset fun v change h => ?_
  cases v with
  | bool b =>
    cases h
    refine ⟨b, rfl, fun x => ?_⟩
    rw [get_bool, hget]
    exact .bool b rfl
  | _ => cases h

theorem text_lawful {get : α → String} {set : String → α → α} (hget : ∀ s x, get (set s x) = s)
    (hset : ∀ s, Spares fields name (set s)) : Lawful fields (.text name get set) := by
  refine lawful_of_sets hset fun v change h => ?_
  cases v with
  | str s =>
    cases h
    refine ⟨s, rfl, fun x => ?_⟩
    rw [get_text, hget]
    exact .text s rfl
  | _ => cases h

/-- nothing is taken by the fields that may hold nothing -/
theorem text?_lawful {get : α → Option String} {set : Option String → α → α} (hget : ∀ s x, get (set s x) = s)
    (hset : ∀ s, Spares fields name (set s)) (hname : name ∈ optional) : Lawful fields (.text? name get set) := by
  refine lawful_of_sets hset fun v change h => ?_
  cases v with
  | str s =>
    cases h
    refine ⟨some s, rfl, fun x => ?_⟩
    rw [get_text?, hget]
    exact .text s rfl
  | null =>
    cases h
    refine ⟨none, rfl, fun x => ?_⟩
    rw [get_text?, hget]
    exact .nothing rfl hname
  | _ => cases h

/-! ## Sections -/

/-- a section is the defaults with the values of the entries in place of them -/
structure Overrides (fields : List (Field α)) (defaults : α) (entries : List (Value × Value)) (x : α) : Prop where
  /-- every key names a field -/
  known : ∀ e ∈ entries, ∃ f ∈ fields, e.1 = .str f.name
  /-- a field that is given holds what is given -/
  given : ∀ f ∈ fields, ∀ v, (.str f.name, v) ∈ entries → f.Takes v (f.get x)
  /-- a field that is not given holds its default -/
  rest : ∀ f ∈ fields, (∀ v, (.str f.name, v) ∉ entries) → f.get x = f.get defaults
  /-- a field of numbers is given numbers only -/
  numbers : ∀ f ∈ fields, f.kind = "int" ∨ f.kind = "float" → ∀ v, (.str f.name, v) ∈ entries →
    (∃ n, v = .int n) ∨ ∃ x, v = .float x

theorem overrides_nil (fields : List (Field α)) (defaults : α) : Overrides fields defaults [] defaults where
  known := List.forall_mem_nil _
  given _ _ _ h := absurd h List.not_mem_nil
  rest _ _ _ := rfl
  numbers _ _ _ _ h := absurd h List.not_mem_nil

variable {part : String} {depth : Option ℕ} {entries : List (Value × Value)} {defaults x y z : α}

/-- an entry that names a field sets that field -/
theorem setEntry_inv (hnames : (fields.map Field.name).Nodup) {f : Field α} (hf : f ∈ fields) {v : Value}
    (h : setEntry fields part depth x (.str f.name, v) = .ok y) :
    ∃ change, f.set? v = some (.ok change) ∧ y = change x := by
  unfold setEntry at h
  rw [find?_name hnames hf] at h
  dsimp only at h
  cases hset : f.set? v with
  | none =>
    rw [hset] at h
    cases h
  | some change =>
    rw [hset] at h
    cases change with
    | error e => cases h
    | ok change => exact ⟨change, rfl, (Except.ok.inj h).symm⟩

/-- **One entry more** overrides one field more: the others, and that one later on, are left as they are. -/
theorem Overrides.cons (hnames : (fields.map Field.name).Nodup) {f : Field α} (hf : f ∈ fields)
    (hlawful : Lawful fields f) {v : Value} {change : α → α} (hset : f.set? v = some (.ok change))
    (hnew : ∀ w, (.str f.name, w) ∉ entries) (h : Overrides fields (change x) entries z) :
    Overrides fields x ((.str f.name, v) :: entries) z := by
  -- the field of the entry holds the value until the end
  have htakes : f.Takes v (f.get z) := by
    rw [h.rest f hf hnew]
    exact hlawful.takes v change hset x
  have hgiven : ∀ g ∈ fields, ∀ w, (.str g.name, w) ∈ (.str f.name, v) :: entries → g.Takes w (g.get z) := by
    intro g hg w hw
    rcases List.mem_cons.1 hw with heq | hw
    · obtain ⟨hname, rfl⟩ := Prod.mk.inj heq
      obtain rfl := List.inj_on_of_nodup_map hnames hg hf (Value.str.inj hname)
      exact htakes
    · exact h.given g hg w hw
  constructor
  · exact List.forall_mem_cons.2 ⟨⟨f, hf, rfl⟩, h.known⟩
  · exact hgiven
  · intro g hg hnot
    have hne : g.name ≠ f.name := fun hname => hnot v (hname ▸ List.mem_cons_self)
    rw [h.rest g hg fun w hw => hnot w (List.mem_cons_of_mem _ hw)]
    exact hlawful.spares v change hset g hg hne x
  · exact fun g hg hk w hw => (hgiven g hg w hw).number hk

/-- **Entries whose keys differ** override the fields they name. -/
theorem foldlM_overrides (hnames : (fields.map Field.name).Nodup) (hlawful : ∀ f ∈ fields, Lawful fields f)
    (hknown : ∀ e ∈ entries, ∃ f ∈ fields, e.1 = .str f.name) (hkeys : Value.Apart (entries.map (·.1)))
    (h : entries.foldlM (setEntry fields part depth) x = .ok z) : Overrides fields x entries z := by
  induction entries generalizing x with
  | nil =>
    obtain rfl := Except.ok.inj h
    exact overrides_nil fields x
  | cons e entries ih =>
    obtain ⟨k, v⟩ := e
    obtain ⟨⟨f, hf, rfl⟩, hrest⟩ := List.forall_mem_cons.1 hknown
    obtain ⟨hnew, hkeys⟩ := Value.apart_cons.1 hkeys
    rw [List.foldlM_cons] at h
    obtain ⟨y, hy, h⟩ := ok_of_bind h
    obtain ⟨change, hset, rfl⟩ := setEntry_inv hnames hf hy
    refine Overrides.cons hnames hf (hlawful f hf) hset (fun w hw => ?_) (ih hrest hkeys h)
    have hsame := hnew _ (List.mem_map_of_mem hw)
    rw [Value.same_str, beq_self_eq_true] at hsame
    cases hsame

/-- a section as its data has it: the defaults if there is none, the defaults overridden if it is a mapping -/
inductive From (fields : List (Field α)) (defaults : α) : Value → α → Prop
  | nothing : From fields defaults .null defaults
  | given {entries : List (Value × Value)} {x : α} (h : Overrides fields defaults entries x) :
      From fields defaults (.map entries) x

/-- keys that are all known name fields -/
theorem known_of_unknownKeys (h : unknownKeys fields entries = []) :
    ∀ e ∈ entries, ∃ f ∈ fields, e.1 = .str f.name := by
  intro e he
  have hk := List.filter_eq_nil_iff.1 h e.1 (List.mem_map_of_mem he)
  obtain ⟨f, hf, hsame⟩ := List.any_eq_true.1 (by simpa using hk)
  exact ⟨f, hf, Value.eq_of_str_same hsame⟩

/-- **A section that is read** is its defaults, overridden by the entries of its data. -/
theorem read_overrides (hnames : (fields.map Field.name).Nodup) (hlawful : ∀ f ∈ fields, Lawful fields f) {data : Value}
    (hkeys : ∀ entries, data = .map entries → Value.Apart (entries.map (·.1)))
    (h : read fields defaults part data depth = .ok x) : From fields defaults data x := by
  cases data with
  | null =>
    obtain rfl := Except.ok.inj h
    exact .nothing
  | map entries =>
    unfold read at h
    dsimp only at h
    split at h
    next hknown => exact .given (foldlM_overrides hnames hlawful (known_of_unknownKeys hknown) (hkeys entries rfl) h)
    next =>
      obtain ⟨_, -, h⟩ := ok_of_bind h
      cases h
  | _ => cases h

end Field

theorem EngineConfig.lawful : ∀ f ∈ EngineConfig.fields, Field.Lawful EngineConfig.fields f := by
  simp [EngineConfig.fields, Field.int_lawful, Field.real_lawful, Field.text_lawful, Field.spares_cons,
    Field.spares_nil]

theorem HidConfig.lawful : ∀ f ∈ HidConfig.fields, Field.Lawful HidConfig.fields f := by
  simp [HidConfig.fields, Field.int_lawful, Field.real_lawful, Field.bool_lawful, Field.text_lawful, Field.spares_cons,
    Field.spares_nil]

theorem HostConfig.lawful : ∀ f ∈ HostConfig.fields, Field.Lawful HostConfig.fields f := by
  simp [HostConfig.fields, Field.real_lawful, Field.bool_lawful, Field.spares_cons, Field.spares_nil]

theorem LogConfig.lawful : ∀ f ∈ LogConfig.fields, Field.Lawful LogConfig.fields f := by
  simp [LogConfig.fields, Field.bool_lawful, Field.text_lawful, Field.text?_lawful, Field.spares_cons,
    Field.spares_nil, Field.mem_optional]

/-! ## Settings -/

/-- **The check of a mode** is that of the bounds of its phases. -/
theorem Policy.sound_iff {p : Policy} : p.Sound ↔ ∀ ph ∈ p.phases, ph.InBounds := by
  simp only [Sound, List.findSome?_eq_none_iff, phaseFlaw?_eq_none]

namespace Settings

/-- the bounds of settings -/
structure InBounds (S : Settings) : Prop where
  engine : S.engine.InBounds
  scan : ¬ S.host.scanIntervalMs ≤ 0.0
  someMode : S.modes ≠ []
  phases : ∀ p ∈ S.modes, p.phases ≠ [] ∧ ∀ ph ∈ p.phases, ph.InBounds
  toggleKeys : Value.Apart S.toggleKeys

/-- settings that pass their check, with modes that do, are within all bounds -/
theorem inBounds_of_check {S : Settings} (h : S.check = .ok ()) (hmodes : ∀ p ∈ S.modes, p.Sound) : S.InBounds := by
  obtain ⟨hscan, hsome, hkeys⟩ := check_inv h
  constructor
  · exact EngineConfig.accepted_iff.1 (accepted_of_check h)
  · exact hscan
  · exact hsome
  · exact fun p hp => ⟨p.phases_ne_nil, Policy.sound_iff.1 (hmodes p hp)⟩
  · exact hkeys

/-- the modes that data stands for: the built-in ones if there is none, those of a mapping in its order -/
inductive ModesOf : Value → List Policy → Prop
  | builtin : ModesOf .null Policy.builtin
  | named {entries : List (Value × Value)} {ps : List Policy} (names : ps.map Policy.name = entries.map (·.1))
      (each : List.Forall₂ (fun m p => Policy.ofData m.1 m.2 = .ok p) entries ps) : ModesOf (.map entries) ps

theorem modesOfData_inv {data : Value} {ps : List Policy} (h : modesOfData data = .ok ps) :
    ModesOf data ps ∧ ∀ p ∈ ps, p.Sound := by
  cases data with
  | null =>
    obtain rfl := Except.ok.inj h
    exact ⟨.builtin, builtin_sound⟩
  | map entries =>
    have h : entries.mapM (fun m => Policy.ofData m.1 m.2) = .ok ps := h
    obtain ⟨hnames, hsound⟩ := mapM_ofData h
    exact ⟨.named hnames (forall₂_of_mapM h), hsound⟩
  | _ => cases h

/-- the keys of each section differ, as those of a mapping do -/
def KeysApart (entries : List (Value × Value)) : Prop :=
  ∀ name ∈ sections, ∀ section', part entries name = .map section' → Value.Apart (section'.map (·.1))

/-- settings are the defaults overridden by their data, and within all bounds -/
structure Valid (entries : List (Value × Value)) (S : Settings) : Prop where
  engine : Field.From EngineConfig.fields {} (part entries "engine") S.engine
  hid : Field.From HidConfig.fields {} (part entries "hid") S.hid
  host : Field.From HostConfig.fields {} (part entries "host") S.host
  logging : Field.From LogConfig.fields {} (part entries "logging") S.logging
  modes : ModesOf (part entries "modes") S.modes
  bounds : S.InBounds

/-- **Settings that are accepted are the defaults overridden, and valid.** Every key of a section is one of its fields,
which holds the value given, with integers widened where it holds a real number; every other field holds its default.
The modes are those of the mapping, in its order, or the built-in ones. The engine, the host, each phase of each mode
and the toggle keys are within their bounds. -/
theorem accepted_valid {entries : List (Value × Value)} {S : Settings} (h : ofData (.map entries) = .ok S)
    (hkeys : KeysApart entries) : Valid entries S := by
  have hread := readFrom_of_ofData h
  obtain ⟨hmodes, hsound⟩ := modesOfData_inv hread.modes
  constructor
  · exact Field.read_overrides (by decide) EngineConfig.lawful (hkeys "engine" (by decide)) hread.engine
  · exact Field.read_overrides (by decide) HidConfig.lawful (hkeys "hid" (by decide)) hread.hid
  · exact Field.read_overrides (by decide) HostConfig.lawful (hkeys "host" (by decide)) hread.host
  · exact Field.read_overrides (by decide) LogConfig.lawful (hkeys "logging" (by decide)) hread.logging
  · exact hmodes
  · exact inBounds_of_check (check_of_ofData h) hsound

/-- an integer where a real number is held, nothing for the directory of the journal, and one mode -/
def widened : List (Value × Value) := [
  (.str "engine", .map [(.str "min_hold_ms", .int 60), (.str "entropy", .str "os")]),
  (.str "modes", .map [(.str "m", .map [
    (.str "toggle_key", .str "x"),
    (.str "phases", .list [.map [(.str "key", .str "a"), (.str "mean_ms", .int 900)]])])]),
  (.str "logging", .map [(.str "log_dir", .null)])]

/-- settings that are accepted, with a floor that was given as an integer -/
theorem accepted_valid_widened : ∃ S, ofData (.map widened) = .ok S ∧ KeysApart widened ∧ Valid widened S ∧
    S.engine.minHoldMs = 60.0 ∧ S.logging.logDir = none := by
  obtain ⟨S, hS, hheld⟩ := exists_of_any (.map widened)
    (fun S => decide (S.engine.minHoldMs = 60.0 ∧ S.logging.logDir = none)) (by decide +kernel)
  have hkeys : KeysApart widened := by
    intro name hname es hes
    simp only [sections, List.mem_cons, List.not_mem_nil, or_false] at hname
    rcases hname with rfl | rfl | rfl | rfl | rfl <;> simp [part, widened, Value.find?] at hes <;> subst hes <;>
      decide +kernel
  exact ⟨S, hS, hkeys, accepted_valid hS hkeys, of_decide_eq_true hheld⟩

end Settings
end KeyHold
