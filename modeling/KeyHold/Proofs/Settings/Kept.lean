/-
The keys of modes and phases that settings keep.

A mode is written with two keys and a phase with three. A section refuses a key that it does not know; a mode and a
phase do not look at theirs, so a key that is not among them is accepted and gone.

- `Has`: the places of data where a mode or a phase has a key.
- `trimmed`: data without the keys that modes and phases do not know.
- `kept_iff_known`: a key that is given is written at its place exactly if it is known.
- `ofData_trimmed`: data is read as the same settings without the other keys.
- `keys_kept_iff`: **no key is ignored exactly if all are known**.
- `misspelt_lost`: a misspelt deviation is accepted, and the phase has none.
-/
import Mathlib.Tactic
import KeyHold.Proofs.Settings.Accepted
import KeyHold.Proofs.Settings.Written

namespace KeyHold

/-! ## Known keys -/

namespace Value

variable {name other : String} {keys : List Value} {f : Value → Value} {entries : List (Value × Value)}

/-- the entries with a key that is known -/
def knownOnly (keys : List Value) (entries : List (Value × Value)) : List (Value × Value) :=
  entries.filter fun e => decide (e.1 ∈ keys)

/-- the entries with the value of one text key changed -/
def change (name : String) (f : Value → Value) (entries : List (Value × Value)) : List (Value × Value) :=
  entries.map fun e => if e.1 = str name then (e.1, f e.2) else e

@[simp] theorem same_str_iff {k : Value} : k.same (str name) = true ↔ k = str name := by
  constructor
  · exact eq_of_same_str
  · rintro rfl
    simp

theorem find?_knownOnly (h : str name ∈ keys) : find? (str name) (knownOnly keys entries) = find? (str name) entries := by
  unfold find? knownOnly
  rw [List.find?_filter]
  congr 2
  funext e
  rw [Bool.eq_iff_iff, decide_eq_true_iff, decide_eq_true_iff, same_str_iff]
  constructor
  · exact And.right
  · intro he
    exact ⟨he ▸ h, he⟩

theorem keys_change : (change name f entries).map (·.1) = entries.map (·.1) := by
  unfold change
  rw [List.map_map]
  refine List.map_congr_left fun e _ => ?_
  dsimp only [Function.comp]
  split_ifs <;> rfl

theorem find?_change_self : find? (str name) (change name f entries) = (find? (str name) entries).map f := by
  induction entries with
  | nil => rfl
  | cons e es ih =>
    unfold find? change at ih ⊢
    rw [List.map_cons, List.find?_cons, List.find?_cons]
    by_cases he : e.1 = str name
    · simp [he]
    · have hne : e.1.same (str name) = false := Bool.eq_false_iff.2 (mt same_str_iff.1 he)
      rw [if_neg he, hne]
      exact ih

theorem find?_change_of_ne (h : other ≠ name) : find? (str other) (change name f entries) = find? (str other) entries := by
  induction entries with
  | nil => rfl
  | cons e es ih =>
    unfold find? change at ih ⊢
    rw [List.map_cons, List.find?_cons, List.find?_cons]
    by_cases he : e.1 = str name
    · have hne : e.1.same (str other) = false := by
        rw [he, same_str]
        exact beq_eq_false_iff_ne.2 h.symm
      rw [if_pos he, hne]
      exact ih
    · rw [if_neg he]
      cases e.1.same (str other) with
      | true => rfl
      | false => exact ih

end Value

namespace Policy

/-- the keys of a mode -/
def modeKeys : List Value := [.str "toggle_key", .str "phases"]

/-- the keys of a phase -/
def phaseKeys : List Value := [.str "key", .str "mean_ms", .str "stddev_ms"]

/-- a phase without the keys that it does not know -/
def trimPhase : Value → Value
  | .map entries => .map (Value.knownOnly phaseKeys entries)
  | v => v

/-- phases without the keys that they do not know, in whatever they are gathered -/
def trimPhases : Value → Value
  | .list xs => .list (xs.map trimPhase)
  | .set xs => .set (xs.map trimPhase)
  | .pair a b => .pair (trimPhase a) (trimPhase b)
  | .map entries => .map (entries.map fun e => (trimPhase e.1, e.2))
  | v => v

/-- a mode without the keys that it and its phases do not know -/
def trimMode : Value → Value
  | .map entries => .map (Value.change "phases" trimPhases (Value.knownOnly modeKeys entries))
  | v => v

theorem phaseOfData_trimPhase (raw : Value) : phaseOfData (trimPhase raw) = phaseOfData raw := by
  cases raw with
  | map entries =>
    have hknown : ∀ key, Value.str key ∈ phaseKeys →
        Value.find? (.str key) (Value.knownOnly phaseKeys entries) = Value.find? (.str key) entries := by
      intro key hkey
      exact Value.find?_knownOnly hkey
    simp only [trimPhase, phaseOfData, Value.field, Value.get?, hknown "key" (by decide), hknown "mean_ms" (by decide),
      hknown "stddev_ms" (by decide)]
  | _ => rfl

theorem truthy_trimPhases (v : Value) : (trimPhases v).truthy = v.truthy := by
  cases v <;> simp [trimPhases, Value.truthy]

theorem items_trimPhases (v : Value) : (trimPhases v).items = v.items.map (List.map trimPhase) := by
  cases v with
  | map entries | str s | bytes bs => simp [trimPhases, trimPhase, Value.items, Except.map]
  | _ => rfl

theorem rawPhases_trim (body : List (Value × Value)) :
    rawPhases (Value.change "phases" trimPhases (Value.knownOnly modeKeys body)) =
      (rawPhases body).map (List.map trimPhase) := by
  unfold rawPhases
  rw [Value.find?_change_self, Value.find?_knownOnly (by decide)]
  cases Value.find? (.str "phases") body with
  | none => rfl
  | some v =>
    dsimp only [Option.map_some, Option.getD_some]
    rw [truthy_trimPhases]
    split_ifs
    · exact items_trimPhases v
    · rfl

theorem mapM_trimPhase {name : Value} {raws : List Value} {phases : List Phase}
    (h : raws.mapM (fun r => (phaseOfData r).mapError (phaseFault none name r)) = .ok phases) :
    (raws.map trimPhase).mapM (fun r => (phaseOfData r).mapError (phaseFault none name r)) = .ok phases := by
  induction raws generalizing phases with
  | nil => exact h
  | cons r raws ih =>
    rw [List.mapM_cons] at h
    obtain ⟨ph, hph, h⟩ := ok_of_bind h
    obtain ⟨phs, hphs, h⟩ := ok_of_bind h
    rw [List.map_cons, List.mapM_cons, phaseOfData_trimPhase, ok_of_mapError hph, ih hphs]
    exact h

/-- **A mode is read without the keys that it does not know.** -/
theorem ofData_trimMode {name data : Value} {p : Policy} (h : ofData name data = .ok p) :
    ofData name (trimMode data) = .ok p := by
  cases data with
  | map body =>
    rw [ofData_map] at h
    obtain ⟨raws, hraws, h⟩ := ok_of_bind h
    obtain ⟨phases, hphases, h⟩ := ok_of_bind h
    rw [trimMode, ofData_map, rawPhases_trim, hraws, Value.find?_change_of_ne (by decide),
      Value.find?_knownOnly (by decide)]
    show (raws.map trimPhase).mapM (fun r => (phaseOfData r).mapError (phaseFault none name r)) >>= _ = _
    rw [mapM_trimPhase hphases]
    exact h
  | _ => cases h

/-- a mode has a phase for each that is written, and each is a mapping -/
theorem phases_length {name : Value} {body : List (Value × Value)} {p : Policy} {raws : List Value}
    (h : ofData name (.map body) = .ok p) (hraws : rawPhases body = .ok raws) : p.phases.length = raws.length := by
  rw [ofData_map, hraws] at h
  obtain ⟨phases, hphases, h⟩ := ok_of_bind (show raws.mapM _ >>= _ = _ from h)
  rw [(make?_inv h).2.1]
  exact (forall₂_of_mapM hphases).length_eq.symm

end Policy

namespace Settings

variable {entries : List (Value × Value)} {S : Settings}

/-! ## Places -/

/-- where a key stands in the modes -/
inductive Place where
  | mode (name key : Value)
  | phase (name : Value) (index : ℕ) (key : Value)

/-- a key that a mode, or a phase, knows -/
def Place.Known : Place → Prop
  | mode _ key => key ∈ Policy.modeKeys
  | phase _ _ key => key ∈ Policy.phaseKeys

/-- the mode of a name is a mapping with these entries -/
def HasMode (data name : Value) (body : List (Value × Value)) : Prop :=
  ∃ entries modes, data = .map entries ∧ part entries "modes" = .map modes ∧ (name, .map body) ∈ modes

/-- data has a key at a place -/
inductive Has (data : Value) : Place → Prop
  | mode {name key : Value} {body : List (Value × Value)} (mode : HasMode data name body)
      (mem : key ∈ body.map (·.1)) : Has data (.mode name key)
  | phase {name key : Value} {index : ℕ} {body : List (Value × Value)} {raws : List Value}
      {phase : List (Value × Value)} (mode : HasMode data name body) (phases : Policy.rawPhases body = .ok raws)
      (nth : raws[index]? = some (.map phase)) (mem : key ∈ phase.map (·.1)) : Has data (.phase name index key)

theorem hasMode_map {name : Value} {body : List (Value × Value)} : HasMode (.map entries) name body ↔
    ∃ modes, part entries "modes" = .map modes ∧ (name, .map body) ∈ modes := by
  constructor
  · rintro ⟨es, modes, h, hpart, hmem⟩
    obtain rfl := Value.map.inj h
    exact ⟨modes, hpart, hmem⟩
  · rintro ⟨modes, hpart, hmem⟩
    exact ⟨entries, modes, rfl, hpart, hmem⟩

/-- the modes that are written are those that there are -/
theorem hasMode_toData (hnames : Value.Apart (S.modes.map Policy.name)) {name : Value} {body : List (Value × Value)} :
    HasMode S.toData name body ↔ ∃ p ∈ S.modes, p.name = name ∧
      body = [(.str "toggle_key", p.toggleKey), (.str "phases", .list (p.phases.map Policy.phaseToData))] := by
  rw [toData, hasMode_map]
  have hpart : part [(.str "engine", Field.write EngineConfig.fields S.engine), (.str "modes", modesToData S.modes),
      (.str "hid", Field.write HidConfig.fields S.hid), (.str "host", Field.write HostConfig.fields S.host),
      (.str "logging", Field.write LogConfig.fields S.logging)] "modes" = modesToData S.modes := by
    simp [part, Value.find?]
  rw [hpart, modesToData_eq hnames]
  constructor
  · rintro ⟨modes, h, hmem⟩
    obtain rfl := Value.map.inj h
    obtain ⟨p, hp, heq⟩ := List.mem_map.1 hmem
    obtain ⟨hname, hbody⟩ := Prod.mk.inj heq
    exact ⟨p, hp, hname, (Value.map.inj hbody).symm⟩
  · rintro ⟨p, hp, rfl, rfl⟩
    exact ⟨_, rfl, List.mem_map.2 ⟨p, hp, rfl⟩⟩

/-- a mode that is read is among the modes -/
theorem mode_of_hasMode {name : Value} {body : List (Value × Value)} (hS : ofData (.map entries) = .ok S)
    (h : HasMode (.map entries) name body) : ∃ p ∈ S.modes, p.name = name ∧ Policy.ofData name (.map body) = .ok p := by
  obtain ⟨modes, hpart, hmem⟩ := hasMode_map.1 h
  have hmodes := (readFrom_of_ofData hS).modes
  rw [hpart] at hmodes
  have hall : List.Forall₂ (fun m p => Policy.ofData m.1 m.2 = .ok p) modes S.modes := forall₂_of_mapM hmodes
  obtain ⟨i, hi, hget⟩ := List.getElem_of_mem hmem
  have hi' : i < S.modes.length := hall.length_eq ▸ hi
  have hread := hall.get hi hi'
  simp only [List.get_eq_getElem, hget] at hread
  exact ⟨S.modes[i], List.getElem_mem hi', (Policy.ofData_inv hread).1, hread⟩

/-- only known keys are written -/
theorem known_of_written (hnames : Value.Apart (S.modes.map Policy.name)) {place : Place} (h : Has S.toData place) :
    place.Known := by
  cases h with
  | mode hmode hmem =>
    obtain ⟨p, -, -, rfl⟩ := (hasMode_toData hnames).1 hmode
    exact hmem
  | phase hmode hraws hnth hmem =>
    obtain ⟨p, -, -, rfl⟩ := (hasMode_toData hnames).1 hmode
    rw [Policy.rawPhases_toData] at hraws
    obtain rfl := Except.ok.inj hraws
    rw [List.getElem?_map] at hnth
    obtain ⟨ph, -, hph⟩ := Option.map_eq_some_iff.1 hnth
    rw [Policy.phaseToData] at hph
    rw [← Value.map.inj hph] at hmem
    exact hmem

/-- a key that is given is written at its place exactly if it is known -/
theorem kept_iff_known (hS : ofData (.map entries) = .ok S) (hnames : NamesApart entries) {place : Place}
    (h : Has (.map entries) place) : Has S.toData place ↔ place.Known := by
  have hapart := (sound_of_ofData hS hnames).names
  refine ⟨known_of_written hapart, fun hknown => ?_⟩
  cases h with
  | mode hmode hmem =>
    obtain ⟨p, hp, hname, -⟩ := mode_of_hasMode hS hmode
    exact .mode ((hasMode_toData hapart).2 ⟨p, hp, hname, rfl⟩) hknown
  | @phase _ _ index _ raws _ hmode hraws hnth hmem =>
    obtain ⟨p, hp, hname, hread⟩ := mode_of_hasMode hS hmode
    have hindex : index < p.phases.length := by
      rw [Policy.phases_length hread hraws]
      exact (List.getElem?_eq_some_iff.1 hnth).1
    have hnth : (p.phases.map Policy.phaseToData)[index]? = some (Policy.phaseToData p.phases[index]) := by
      rw [List.getElem?_map, List.getElem?_eq_getElem hindex]
      rfl
    exact .phase ((hasMode_toData hapart).2 ⟨p, hp, hname, rfl⟩) (Policy.rawPhases_toData p) hnth hknown

/-! ## Keys that are ignored -/

/-- modes without the keys that they do not know -/
def trimModes : Value → Value
  | .map modes => .map (modes.map fun m => (m.1, Policy.trimMode m.2))
  | v => v

/-- data without the keys that modes and phases do not know -/
def trimmed (entries : List (Value × Value)) : List (Value × Value) := Value.change "modes" trimModes entries

theorem part_trimmed_modes : part (trimmed entries) "modes" = trimModes (part entries "modes") := by
  unfold part trimmed
  rw [Value.find?_change_self]
  cases Value.find? (.str "modes") entries <;> rfl

theorem part_trimmed {name : String} (h : name ≠ "modes") : part (trimmed entries) name = part entries name := by
  unfold part trimmed
  rw [Value.find?_change_of_ne h]

theorem modesOfData_trimModes {data : Value} {ps : List Policy} (h : modesOfData data = .ok ps) :
    modesOfData (trimModes data) = .ok ps := by
  cases data with
  | map modes =>
    replace h : modes.mapM (fun m => Policy.ofData m.1 m.2) = .ok ps := h
    show (modes.map fun m => (m.1, Policy.trimMode m.2)).mapM (fun m => Policy.ofData m.1 m.2) = .ok ps
    induction modes generalizing ps with
    | nil => exact h
    | cons m modes ih =>
      rw [List.mapM_cons] at h
      obtain ⟨p, hp, h⟩ := ok_of_bind h
      obtain ⟨ps', hps, h⟩ := ok_of_bind h
      rw [List.map_cons, List.mapM_cons, Policy.ofData_trimMode hp, ih hps]
      exact h
  | _ => exact h

theorem keys_knownOnly {keys : List Value} {es : List (Value × Value)} {key : Value}
    (h : key ∈ (Value.knownOnly keys es).map (·.1)) : key ∈ keys := by
  obtain ⟨e, he, rfl⟩ := List.mem_map.1 h
  exact of_decide_eq_true (List.mem_filter.1 he).2

/-- a phase that is left as a mapping has only keys that it knows -/
theorem keys_trimPhase {raw : Value} {phase : List (Value × Value)} (h : Policy.trimPhase raw = .map phase) {key : Value}
    (hkey : key ∈ phase.map (·.1)) : key ∈ Policy.phaseKeys := by
  cases raw with
  | map entries =>
    rw [← Value.map.inj h] at hkey
    exact keys_knownOnly hkey
  | _ => cases h

/-- a mode that is left is one that was there, without the keys that it does not know -/
theorem hasMode_trimmed {name : Value} {body : List (Value × Value)} (h : HasMode (.map (trimmed entries)) name body) :
    ∃ whole, body = Value.change "phases" Policy.trimPhases (Value.knownOnly Policy.modeKeys whole) := by
  obtain ⟨modes, hpart, hmem⟩ := hasMode_map.1 h
  rw [part_trimmed_modes] at hpart
  cases hwhole : part entries "modes" with
  | map whole =>
    rw [hwhole] at hpart
    rw [← Value.map.inj hpart] at hmem
    obtain ⟨m, -, hm⟩ := List.mem_map.1 hmem
    cases hbody : m.2 with
    | map body' =>
      rw [hbody] at hm
      exact ⟨body', (Value.map.inj (Prod.mk.inj hm).2).symm⟩
    | _ =>
      rw [hbody] at hm
      cases (Prod.mk.inj hm).2
  | _ =>
    rw [hwhole] at hpart
    cases hpart

/-- only known keys are left -/
theorem known_of_trimmed {place : Place} (h : Has (.map (trimmed entries)) place) : place.Known := by
  cases h with
  | mode hmode hmem =>
    obtain ⟨whole, rfl⟩ := hasMode_trimmed hmode
    rw [Value.keys_change] at hmem
    exact keys_knownOnly hmem
  | phase hmode hraws hnth hmem =>
    obtain ⟨whole, rfl⟩ := hasMode_trimmed hmode
    rw [Policy.rawPhases_trim] at hraws
    cases hwhole : Policy.rawPhases whole with
    | error e =>
      rw [hwhole] at hraws
      cases hraws
    | ok raws =>
      rw [hwhole] at hraws
      rw [← Except.ok.inj hraws, List.getElem?_map] at hnth
      obtain ⟨raw, -, hraw⟩ := Option.map_eq_some_iff.1 hnth
      exact keys_trimPhase hraw hmem

/-- **Data is read as the same settings without the keys that modes and phases do not know.** -/
theorem ofData_trimmed (h : ofData (.map entries) = .ok S) : ofData (.map (trimmed entries)) = .ok S := by
  have h : ofEntries entries = .ok S := h
  have hunknown : unknown (trimmed entries) = unknown entries := by
    unfold unknown trimmed
    rw [Value.keys_change]
  have hsections : ∀ modes, readSections {} (trimmed entries) modes = readSections {} entries modes := by
    intro modes
    unfold readSections
    rw [part_trimmed (by decide), part_trimmed (by decide), part_trimmed (by decide), part_trimmed (by decide)]
  show ofEntries (trimmed entries) = .ok S
  rw [ofEntries_eq] at h ⊢
  rw [hunknown, part_trimmed_modes]
  cases hu : unknown entries with
  | cons k ks =>
    rw [hu] at h
    exact h
  | nil =>
    rw [hu] at h
    obtain ⟨modes, hmodes, h⟩ := ok_of_bind h
    dsimp only
    rw [modesOfData_trimModes hmodes]
    show (readSections {} (trimmed entries) modes).mapError asConfigFault = .ok S
    rw [hsections]
    exact h

/-- **No key of a mode or a phase is ignored exactly if all are known.** The keys that data has and the settings do not
write are those that modes and phases do not know; they are accepted, and the data without them is read as the same
settings. -/
theorem keys_kept_iff (hS : ofData (.map entries) = .ok S) (hnames : NamesApart entries) :
    ((∀ place, Has (.map entries) place → Has S.toData place) ↔ ∀ place, Has (.map entries) place → place.Known) ∧
      (∀ place, Has (.map entries) place → ¬ place.Known → ¬ Has S.toData place) ∧
      (∀ place, Has (.map (trimmed entries)) place → place.Known) ∧ ofData (.map (trimmed entries)) = .ok S := by
  refine ⟨⟨fun h place hplace => ?_, fun h place hplace => ?_⟩, fun place hplace hunknown hkept => ?_, ?_, ?_⟩
  · exact (kept_iff_known hS hnames hplace).1 (h place hplace)
  · exact (kept_iff_known hS hnames hplace).2 (h place hplace)
  · exact hunknown ((kept_iff_known hS hnames hplace).1 hkept)
  · exact fun _ => known_of_trimmed
  · exact ofData_trimmed hS

/-- two modes, one with all keys that modes and phases know and one with those alone that it must have -/
def plainModes : List (Value × Value) := [(.str "modes", .map [
  (.str "m", .map [
    (.str "toggle_key", .str "x"),
    (.str "phases", .list [
      .map [(.str "key", .str "a"), (.str "mean_ms", .float 500.0), (.str "stddev_ms", .float 9.0)],
      .map [(.str "mean_ms", .int 700), (.str "key", .str "b")]])]),
  (.str "n", .map [(.str "phases", .list [.map [(.str "key", .str "up"), (.str "mean_ms", .str "900")]])])])]

/-- all keys of these modes are known, and all are written -/
theorem keys_kept_plain : ∃ S, ofData (.map plainModes) = .ok S ∧ NamesApart plainModes ∧
    (∀ place, Has (.map plainModes) place → place.Known) ∧
    ∀ place, Has (.map plainModes) place → Has S.toData place := by
  obtain ⟨S, hS, -⟩ := exists_of_any (.map plainModes) (fun _ => true) (by decide +kernel)
  have hnames : NamesApart plainModes := by
    intro modes h
    obtain rfl : _ = modes := by simpa [plainModes, part, Value.find?] using h
    decide +kernel
  -- there is nothing to leave out
  have htrimmed : trimmed plainModes = plainModes := by decide +kernel
  have hknown : ∀ place, Has (.map plainModes) place → place.Known := by
    intro place h
    rw [← htrimmed] at h
    exact known_of_trimmed h
  exact ⟨S, hS, hnames, hknown, (keys_kept_iff hS hnames).1.2 hknown⟩

/-- a phase whose deviation is misspelt -/
def misspeltPhase : List (Value × Value) :=
  [(.str "key", .str "a"), (.str "mean_ms", .float 500.0), (.str "stdev_ms", .float 9.0)]

/-- a mode with that phase -/
def misspeltMode : List (Value × Value) := [(.str "phases", .list [.map misspeltPhase])]

def misspelt : List (Value × Value) := [(.str "modes", .map [(.str "m", .map misspeltMode)])]

/-- **A misspelt deviation is accepted**: the phase has none, and what is written does not have the key. -/
theorem misspelt_lost : ∃ S, ofData (.map misspelt) = .ok S ∧ NamesApart misspelt ∧
    Has (.map misspelt) (.phase (.str "m") 0 (.str "stdev_ms")) ∧
    ¬ Has S.toData (.phase (.str "m") 0 (.str "stdev_ms")) ∧
    ∀ p ∈ S.modes, ∀ ph ∈ p.phases, ph.stddev = 0.0 := by
  obtain ⟨S, hS, hstddev⟩ := exists_of_any (.map misspelt)
    (fun S => decide (∀ p ∈ S.modes, ∀ ph ∈ p.phases, ph.stddev = 0.0)) (by decide +kernel)
  have hpart : part misspelt "modes" = .map [(.str "m", .map misspeltMode)] := by
    simp [misspelt, part, Value.find?]
  have hnames : NamesApart misspelt := by
    intro modes h
    obtain rfl := Value.map.inj (hpart.symm.trans h)
    exact List.pairwise_singleton _ _
  refine ⟨S, hS, hnames, ?_, fun h => ?_, of_decide_eq_true hstddev⟩
  · have hmode : HasMode (.map misspelt) (.str "m") misspeltMode :=
      hasMode_map.2 ⟨_, hpart, List.mem_singleton_self _⟩
    have hphases : Policy.rawPhases misspeltMode = .ok [.map misspeltPhase] := by decide +kernel
    exact .phase hmode hphases rfl (by decide +kernel)
  · have hknown : (Place.phase (.str "m") 0 (.str "stdev_ms")).Known :=
      known_of_written (sound_of_ofData hS hnames).names h
    revert hknown
    show ¬ Value.str "stdev_ms" ∈ Policy.phaseKeys
    decide

end Settings
end KeyHold
