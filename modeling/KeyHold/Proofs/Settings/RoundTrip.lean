/-
Settings that come back.

- `Files.read_write`: a text that was written is read again, if reading leaves its line ends alone; what is printed has
  line feeds only.
- `Settings.same_self`: settings without "not a number" equal themselves.
- `Settings.round_trip`: **settings that were read are read again from what they write**, as data, and from any path that
  takes their text, if the text reads as the data that it was printed from.
-/
import Mathlib.Tactic
import KeyHold.Settings.Files
import KeyHold.Proofs.Identical
import KeyHold.Proofs.Reflexive
import KeyHold.Proofs.Settings.Written
import KeyHold.Proofs.Yaml.Shown

namespace KeyHold

/-! ## Files -/

namespace Files

variable {files : Files} {path : String}

/-- the directories on the way to a path can be made, and its end is no directory -/
def Takes (files : Files) (path : String) : Prop :=
  ∃ made p, files.makeDir (Path.parent path) = .ok made ∧ made.follow path = some p ∧ made.isDir p = false ∧
    namesDirectory path = false

theorem lineFeeds_of_shown {cs : List Char} (h : Yaml.Shown cs) : lineFeeds cs = cs := by
  fun_induction lineFeeds cs with
  | case1 | case2 => exact absurd (h '\x0d' List.mem_cons_self) (by decide)
  | case3 c rest _ _ ih => rw [ih fun d hd => h d (List.mem_cons_of_mem c hd)]
  | case4 => rfl

/-- **A text that was written is read again.** -/
theorem read_write {p : Place} {text : String} (hp : files.follow path = some p) (hdir : files.isDir p = false)
    (hname : namesDirectory path = false) (htext : Yaml.Shown text.toList) :
    ∃ files', files.write path text = .ok files' ∧ files'.locate path = .text text ∧ files'.read path = .ok text := by
  let files' : Files := { files with texts := (p, text) :: files.texts.filter (·.1 ≠ p) }
  have hlocate : files'.locate path = .text text := by
    have hlookup : files'.texts.lookup p = some text := by simp [files']
    unfold locate
    rw [show files'.follow path = some p from hp]
    dsimp only
    rw [show files'.isDir p = false from hdir, hlookup]
    rfl
  refine ⟨files', ?_, hlocate, ?_⟩
  · unfold write
    rw [hp]
    dsimp only
    rw [hdir, hname]
    rfl
  · unfold read
    rw [hlocate]
    dsimp only
    rw [hname, lineFeeds_of_shown htext, String.ofList_toList]
    rfl

/-- the empty path leads to a directory -/
theorem Takes.ne_empty (h : files.Takes path) : path ≠ "" := by
  rintro rfl
  obtain ⟨made, p, -, hp, hdir, -⟩ := h
  obtain rfl : [] = p := Option.some.inj hp
  cases hdir

end Files

namespace Settings

/-! ## Equality -/

theorem all_zip_self {α : Type} {f : α × α → Bool} {xs : List α} (h : ∀ x ∈ xs, f (x, x) = true) :
    (xs.zip xs).all f = true := by
  induction xs with
  | nil => rfl
  | cons x xs ih =>
    obtain ⟨hx, hxs⟩ := List.forall_mem_cons.1 h
    rw [List.zip_cons_cons, List.all_cons, hx, ih hxs]
    rfl

theorem samePhases_self {phases : List Phase}
    (h : ∀ ph ∈ phases, ph.mean.isNaN = false ∧ ph.stddev.isNaN = false) : samePhases phases phases = true := by
  unfold samePhases
  rw [beq_self_eq_true, Bool.true_and]
  refine all_zip_self fun ph hph => ?_
  obtain ⟨hmean, hstddev⟩ := h ph hph
  simp only [beq_self_eq_true, float_beq_self hmean, float_beq_self hstddev, Bool.and_self]

theorem samePolicy_self {p : Policy} (hname : p.name.noNan = true) (hdata : p.toData.noNan = true) :
    samePolicy p p = true := by
  simp only [Policy.toData, Value.noNan, Value.noNanEntries, Value.noNanAll_iff, Bool.and_eq_true, Bool.true_and,
    Bool.and_true, List.forall_mem_map] at hdata
  have hphases : samePhases p.phases p.phases = true := by
    refine samePhases_self fun ph hph => ?_
    simpa [Policy.phaseToData, Value.noNan, Value.noNanEntries] using hdata.2 ph hph
  unfold samePolicy
  rw [Value.same_self _ hname, hphases, Value.same_self _ hdata.1]
  rfl

/-- **Settings without "not a number" equal themselves.** -/
theorem same_self {S : Settings} (hnames : Value.Apart (S.modes.map Policy.name)) (h : S.toData.noNan = true) :
    S.same S = true := by
  simp only [toData, modesToData_eq hnames, Value.noNan, Value.noNanEntries, Value.noNanEntries_iff, Bool.and_eq_true,
    Bool.true_and, Bool.and_true, List.forall_mem_map] at h
  obtain ⟨hengine, hmodes, hhid, hhost, hlogging⟩ := h
  unfold same
  rw [Value.same_self _ hengine, Value.same_self _ hhid, Value.same_self _ hhost, Value.same_self _ hlogging,
    beq_self_eq_true, all_zip_self]
  · rfl
  · exact fun p hp => samePolicy_self (hmodes p hp).1 (hmodes p hp).2

/-! ## There and back -/

theorem text_eq (S : Settings) : ∃ entries, S.toData = .map entries ∧ S.text = Yaml.print entries := ⟨_, rfl, rfl⟩

theorem ofText_text {S : Settings} (hS : S.Sound) (hyaml : Yaml.read? S.text = .ok S.toData) (path : String) :
    ofText path S.text = .ok S := by
  obtain ⟨entries, hdata, -⟩ := text_eq S
  have hread := ofData_toData hS {}
  rw [hdata] at hread hyaml
  unfold ofText
  rw [hyaml]
  exact hread

theorem ofFile_of_read {files : Files} {path text : String} (h : files.read path = .ok text) :
    ofFile files path = ofText path text := by
  unfold ofFile
  rw [h]
  rfl

/-- settings that are saved are loaded again -/
theorem load_save {S : Settings} (hS : S.Sound) (hyaml : Yaml.read? S.text = .ok S.toData) {files : Files}
    {path : String} (h : files.Takes path) :
    ∃ files', S.save path files = .ok files' ∧ ∀ env?, load files' env? (some path) = .ok S := by
  obtain ⟨made, p, hmade, hp, hdir, hname⟩ := id h
  have hshown : Yaml.Shown S.text.toList := by
    obtain ⟨entries, -, htext⟩ := text_eq S
    exact htext ▸ Yaml.print_shown entries
  obtain ⟨files', hwrite, hlocate, hread⟩ := Files.read_write hp hdir hname hshown
  refine ⟨files', ?_, fun env? => ?_⟩
  · unfold save
    rw [hmade]
    exact hwrite
  · unfold load
    dsimp only
    rw [hlocate, if_neg nofun, if_neg h.ne_empty]
    show ofFile files' path = .ok S
    rw [ofFile_of_read hread, ofText_text hS hyaml path]

/-- **Settings that were read come back.** What they write is read as the very same settings: every field of the four
sections, and every mode with its name, its phases and its toggle key, in order. Without "not a number" in them they are
equal to what comes back. And where their text reads as the data that it was printed from, they are saved to any path
that takes a text, and are what is loaded from there, whatever the environment names. -/
theorem round_trip {entries : List (Value × Value)} {S : Settings} (hS : ofData (.map entries) = .ok S)
    (hnames : NamesApart entries) (hnan : S.toData.noNan = true) :
    ofData S.toData = .ok S ∧ S.same S = true ∧
      (Yaml.read? S.text = .ok S.toData → ∀ (files : Files) (path : String), files.Takes path →
        ∃ files', S.save path files = .ok files' ∧ ∀ env?, load files' env? (some path) = .ok S) := by
  have hsound := sound_of_ofData hS hnames
  refine ⟨ofData_toData hsound {}, same_self hsound.names hnan, fun hyaml files path hpath => ?_⟩
  exact load_save hsound hyaml hpath

/-- the defaults with one mode, whose key is a numeral -/
def oneMode : Settings := { modes := [{ name := .str "m", phases := [⟨"1", 5.0, 0.5⟩], toggleKey := .str "x" }] }

theorem oneMode_sound : oneMode.Sound where
  check := by decide +kernel
  modes := by
    intro p hp
    rw [List.mem_singleton.1 hp]
    show List.findSome? _ _ = none
    decide +kernel
  names := by decide +kernel

/-- the file that holds them, line by line; the numeral is quoted -/
def oneModeLines : List String := [
  "engine:\n", "  safety_timeout_ms: 150000\n", "  min_hold_ms: 50.0\n", "  bounce_one_in: 10\n",
  "  glitch_one_in: 20\n", "  glitch_split_min_pct: 30\n", "  glitch_split_max_pct: 70\n",
  "  glitch_gap_mean_ms: 80.0\n", "  glitch_gap_stddev_ms: 30.0\n", "  glitch_gap_min_ms: 20.0\n",
  "  travel_mean_us: 1500.0\n", "  travel_stddev_us: 400.0\n", "  bounce_off_mean_us: 500.0\n",
  "  bounce_off_stddev_us: 200.0\n", "  bounce_on_mean_us: 300.0\n", "  bounce_on_stddev_us: 100.0\n",
  "  max_wait_us: 60000\n", "  entropy: clock\n",
  "modes:\n", "  m:\n", "    toggle_key: x\n", "    phases:\n", "    - key: '1'\n", "      mean_ms: 5.0\n",
  "      stddev_ms: 0.5\n",
  "hid:\n", "  host: 192.168.100.1\n", "  keyboard_port: 8889\n", "  timeout: 5.0\n", "  auto_reconnect: true\n",
  "host:\n", "  scan_interval_ms: 2.0\n", "  dry_run: false\n",
  "logging:\n", "  level: INFO\n", "  log_dir: null\n", "  colored: true\n"]

theorem oneMode_text : oneMode.text = String.join oneModeLines := by decide +kernel

/-- the file reads as the data that it was printed from -/
theorem oneMode_read : Yaml.read? oneMode.text = .ok oneMode.toData := by
  have hchars : oneMode.text.toList = oneModeLines.flatMap String.toList := by rw [oneMode_text, String.toList_join]
  rw [Yaml.read?, hchars]
  decide +kernel

/-- these settings are saved below a directory that is made for them, and come back -/
theorem oneMode_comes_back : ofData oneMode.toData = .ok oneMode ∧ oneMode.same oneMode = true ∧
    ∃ files', oneMode.save "saved/keys.yaml" {} = .ok files' ∧
      load files' none (some "saved/keys.yaml") = .ok oneMode := by
  have hnames : NamesApart [(.str "engine", Field.write EngineConfig.fields oneMode.engine),
      (.str "modes", modesToData oneMode.modes), (.str "hid", Field.write HidConfig.fields oneMode.hid),
      (.str "host", Field.write HostConfig.fields oneMode.host),
      (.str "logging", Field.write LogConfig.fields oneMode.logging)] := by
    intro modes h
    have h : modesToData oneMode.modes = .map modes := by simpa [part, Value.find?] using h
    rw [modesToData_eq oneMode_sound.names] at h
    obtain rfl := Value.map.inj h
    decide +kernel
  obtain ⟨hdata, hsame, hfile⟩ := round_trip (ofData_toData oneMode_sound {}) hnames (by decide +kernel)
  obtain ⟨files', hsave, hload⟩ := hfile oneMode_read {} "saved/keys.yaml" ⟨_, _, rfl, rfl, rfl, rfl⟩
  exact ⟨hdata, hsame, files', hsave, hload none⟩

end Settings
end KeyHold
