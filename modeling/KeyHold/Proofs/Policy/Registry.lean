/-
A registry tells what was registered.

A name that is registered again keeps its place and gets the new policy, with whatever toggle key that has. So each
name stands where it was registered first and gives what was registered last, and a toggle key is looked up among the
policies that the names give now. The host looks toggle keys up in a table of its own instead, in which the last entry
for a key would count and not the first; the two agree because the toggle keys of settings differ. They agree for keys
that a table may have, that is: a list cannot be asked for in a table, and "not a number" is found there as the very
object that it is, while the registry compares and finds nothing.

- `find?_put`, `map_put`: what one registration does to a look-up, and to what is told of policies of one name.
- `Told`: the registry after what was registered. `Told.register`: **one registration more.**
- `Tells`: what that means for each question. `Value.lookup`: a question to a table.
- `registry_tells`: **any registrations**, and the host's table. `nanToggle_disagrees`: what the table tells otherwise.
-/
import Mathlib.Tactic
import KeyHold.Proofs.Host.ToggleKeys
import KeyHold.Proofs.Identical
import KeyHold.Proofs.Keys

namespace KeyHold

/-! ## Tables -/

namespace Value

/-- what a table gives for a key: only values that may be keys can be asked for, and a key that is the very object in
the table, which `own` tells, is found without being compared -/
def lookup (own : Value → Bool) (key : Value) (table : List (Value × Value)) : Except Fault (Option Value) :=
  if key.hashable then .ok ((table.find? fun e => own e.1 || e.1.same key).map (·.2))
  else .error (.wrongKind ("unhashable type: '" ++ key.kind ++ "'"))

/-- a key that is the same as itself is found by comparing, whichever object it is -/
theorem lookup_eq_find? {own : Value → Bool} {key : Value} (hkey : key.IsKey) (hown : ∀ k, own k = true → k = key)
    (table : List (Value × Value)) : lookup own key table = .ok (find? key table) := by
  have hcompare : (fun e : Value × Value => own e.1 || e.1.same key) = fun e => e.1.same key := by
    funext e
    cases h : own e.1 with
    | false => exact Bool.false_or _
    | true => rw [hown e.1 h, hkey.same_self, Bool.true_or]
  unfold lookup find?
  rw [if_pos hkey.hashable, hcompare]

end Value

namespace Registry

/-! ## What was registered -/

/-- the policy that was registered last under a name -/
def lastNamed (name : Value) (ps : List Policy) : Option Policy := (ps.filter fun p => p.name.same name).getLast?

/-- the place of the first registration under a name, the end if there is none -/
def firstNamed (name : Value) (ps : List Policy) : ℕ := ps.findIdx fun p => p.name.same name

variable {ps qs : List Policy} {p q : Policy} {r : Registry} {m name : Value}

theorem lastNamed_snoc (name : Value) (ps : List Policy) (p : Policy) :
    lastNamed name (ps ++ [p]) = if p.name.same name then some p else lastNamed name ps := by
  unfold lastNamed
  rw [List.filter_append]
  split_ifs with h
  · simp [h]
  · simp [h]

theorem lastNamed_eq_none_iff : lastNamed name ps = none ↔ ∀ p ∈ ps, p.name.same name = false := by
  unfold lastNamed
  simp

theorem firstNamed_lt (hq : q ∈ ps) (h : q.name.same name = true) : firstNamed name ps < ps.length :=
  List.findIdx_lt_length_of_exists ⟨q, hq, h⟩

/-- a registration more leaves the place of a name that is there -/
theorem firstNamed_snoc_of_lt (h : firstNamed name ps < ps.length) (p : Policy) :
    firstNamed name (ps ++ [p]) = firstNamed name ps := by
  unfold firstNamed at h ⊢
  rw [List.findIdx_append, if_pos h]

/-- a new name comes after all that are there -/
theorem firstNamed_snoc_of_new (h : ∀ q ∈ ps, q.name.same name = false) (p : Policy) :
    ps.length ≤ firstNamed name (ps ++ [p]) := by
  unfold firstNamed
  rw [List.findIdx_append, List.findIdx_eq_length.2 h, if_neg (lt_irrefl _)]
  omega

/-- names that are the same were registered first at one place -/
theorem firstNamed_congr (hps : ∀ p ∈ ps, p.name.IsKey) (hm : m.hashable = true) (hname : name.hashable = true)
    (h : m.same name = true) : firstNamed m ps = firstNamed name ps := by
  induction ps with
  | nil => rfl
  | cons p ps ih =>
    obtain ⟨hp, hps⟩ := List.forall_mem_cons.1 hps
    have hsame : p.name.same m = p.name.same name := by
      rw [Value.same_comm hp.hashable hm, Value.same_comm hp.hashable hname, Value.same_congr hm hname h]
    unfold firstNamed at ih ⊢
    rw [List.findIdx_cons, List.findIdx_cons, hsame, ih hps]

/-! ## One registration -/

theorem mem_put (h : q ∈ put p qs) : q = p ∨ q ∈ qs := by
  induction qs with
  | nil => exact Or.inl (List.mem_singleton.1 h)
  | cons x qs ih =>
    rw [put] at h
    split_ifs at h
    · rcases List.mem_cons.1 h with rfl | h
      · exact Or.inl rfl
      · exact Or.inr (List.mem_cons_of_mem x h)
    · rcases List.mem_cons.1 h with rfl | h
      · exact Or.inr List.mem_cons_self
      · exact (ih h).imp_right (List.mem_cons_of_mem x)

/-- the names that are the same as the one that is registered give its policy, and all others what they gave before -/
theorem find?_put (hp : p.name.IsKey) (hqs : ∀ q ∈ qs, q.name.IsKey) (name : Value) :
    (put p qs).find? (fun q => q.name.same name) =
      if p.name.same name then some p else qs.find? fun q => q.name.same name := by
  induction qs with
  | nil => cases h : p.name.same name <;> simp [put, h]
  | cons q qs ih =>
    obtain ⟨hq, hqs⟩ := List.forall_mem_cons.1 hqs
    rw [put]
    cases hqp : q.name.same p.name with
    | true =>
      have hsame : q.name.same name = p.name.same name := Value.same_congr hq.hashable hp.hashable hqp name
      cases h : p.name.same name <;> simp [hsame, h]
    | false =>
      have hne : p.name.same name = true → q.name.same name = false := by
        intro hpn
        have hname : name.hashable = true := Value.hashable_of_same hp.hashable hpn
        have hnp : name.same p.name = true := (Value.same_comm hname hp.hashable).trans hpn
        rw [← Bool.not_eq_true]
        intro hqn
        rw [Value.same_trans hq.hashable hqn hnp] at hqp
        cases hqp
      simp only [Bool.false_eq_true, if_false, List.find?_cons, ih hqs]
      split_ifs with hpn
      · rw [hne hpn]
      · rfl

/-- registering a policy changes nothing that is told alike of policies of one name, but for what it adds at the end -/
theorem map_put {β : Type} {f : Policy → β} (hf : ∀ q ∈ qs, q.name.same p.name = true → f q = f p) :
    (put p qs).map f = if qs.any fun q => q.name.same p.name then qs.map f else qs.map f ++ [f p] := by
  induction qs with
  | nil => rfl
  | cons q qs ih =>
    obtain ⟨hq, hqs⟩ := List.forall_mem_cons.1 hf
    rw [put, List.any_cons]
    cases hsame : q.name.same p.name with
    | true => simp [hq hsame]
    | false =>
      rw [Bool.false_or]
      simp only [Bool.false_eq_true, if_false, List.map_cons, ih hqs]
      split_ifs <;> rfl

/-- the registry after policies were registered, seen from what was registered -/
structure Told (r : Registry) (ps : List Policy) : Prop where
  find : ∀ name, r.find? name = lastNamed name ps
  mem : ∀ q ∈ r.policies, q ∈ ps
  ordered : r.policies.Pairwise fun p q => firstNamed p.name ps < firstNamed q.name ps

/-- **One registration more.** -/
theorem Told.register (h : r.Told ps) (hps : ∀ q ∈ ps, q.name.IsKey) (hp : p.name.IsKey) :
    (r.register p).Told (ps ++ [p]) := by
  have hqs : ∀ q ∈ r.policies, q.name.IsKey := fun q hq => hps q (h.mem q hq)
  have hkeys : ∀ q ∈ ps ++ [p], q.name.IsKey := by
    simpa [or_imp, forall_and] using ⟨hps, hp⟩
  refine { find := ?find, mem := ?mem, ordered := ?ordered }
  case find =>
    intro name
    rw [lastNamed_snoc, ← h.find name]
    exact find?_put hp hqs name
  case mem =>
    intro q hq
    rcases mem_put hq with rfl | hq
    · simp
    · exact List.mem_append_left [p] (h.mem q hq)
  case ordered =>
    -- the places of the names that are there stay, and only a name that is new adds a place
    have hplace : ∀ q ∈ r.policies, firstNamed q.name (ps ++ [p]) = firstNamed q.name ps := by
      intro q hq
      exact firstNamed_snoc_of_lt (firstNamed_lt (h.mem q hq) (hqs q hq).same_self) p
    have hold : (r.policies.map fun q => firstNamed q.name (ps ++ [p])).Pairwise (· < ·) := by
      rw [List.pairwise_map]
      refine h.ordered.imp_of_mem ?_
      intro q q' hq hq' hlt
      rwa [hplace q hq, hplace q' hq']
    suffices hnew : ((put p r.policies).map fun q => firstNamed q.name (ps ++ [p])).Pairwise (· < ·) from
      List.pairwise_map.1 hnew
    rw [map_put fun q hq hsame => firstNamed_congr hkeys (hqs q hq).hashable hp.hashable hsame]
    split_ifs with hany
    · exact hold
    · have hnone : r.find? p.name = none := by
        unfold find?
        simpa using hany
      rw [h.find, lastNamed_eq_none_iff] at hnone
      rw [List.pairwise_append]
      refine ⟨hold, List.pairwise_singleton _ _, ?_⟩
      simp only [List.mem_map, List.mem_singleton, forall_exists_index, and_imp]
      rintro _ q hq rfl _ rfl
      calc firstNamed q.name (ps ++ [p]) = firstNamed q.name ps := hplace q hq
        _ < ps.length := firstNamed_lt (h.mem q hq) (hqs q hq).same_self
        _ ≤ firstNamed p.name (ps ++ [p]) := firstNamed_snoc_of_new hnone p

/-! ## Any registrations -/

theorem ofList_snoc (ps : List Policy) (p : Policy) : ofList (ps ++ [p]) = (ofList ps).register p := by
  unfold ofList
  rw [List.foldl_append]
  rfl

theorem told_ofList (hps : ∀ p ∈ ps, p.name.IsKey) : (ofList ps).Told ps := by
  induction ps using List.reverseRecOn with
  | nil => exact { find := fun _ => rfl, mem := fun _ h => h, ordered := List.Pairwise.nil }
  | append_singleton ps p ih =>
    have hps' : ∀ q ∈ ps, q.name.IsKey := fun q hq => hps q (List.mem_append_left [p] hq)
    rw [ofList_snoc]
    exact (ih hps').register hps' (hps p (by simp))

/-- what a registry answers after policies were registered -/
structure Tells (r : Registry) (ps : List Policy) : Prop where
  found : ∀ name p, r.get name = .ok p ↔ lastNamed name ps = some p
  unknown : ∀ name, name.hashable = true →
    (r.get name = .error (.unknownMode name) ↔ ∀ p ∈ ps, p.name.same name = false)
  apart : Value.Apart r.names
  listed : ∀ name, (∃ n ∈ r.names, n.same name = true) ↔ ∃ p ∈ ps, p.name.same name = true
  ordered : r.names.Pairwise fun m n => firstNamed m ps < firstNamed n ps
  size : r.names.length = r.size
  toggles : ∀ key, r.byToggleKey? key =
    (r.names.filterMap fun n => lastNamed n ps).find? fun p => p.toggleKey.same key

theorem get_eq_ok_iff : r.get name = .ok p ↔ r.find? name = some p := by
  unfold get
  cases r.find? name <;> simp

theorem get_eq_error_iff : r.get name = .error (.unknownMode name) ↔ r.find? name = none := by
  unfold get
  cases r.find? name <;> simp

theorem Told.tells (h : r.Told ps) (hps : ∀ p ∈ ps, p.name.IsKey) : r.Tells ps := by
  have hqs : ∀ q ∈ r.policies, q.name.IsKey := fun q hq => hps q (h.mem q hq)
  have hordered : r.names.Pairwise fun m n => firstNamed m ps < firstNamed n ps := List.pairwise_map.2 h.ordered
  have hapart : Value.Apart r.names := by
    refine hordered.imp_of_mem ?_
    intro m n hm hn hlt
    obtain ⟨p, hp, rfl⟩ := List.mem_map.1 hm
    obtain ⟨q, hq, rfl⟩ := List.mem_map.1 hn
    rw [← Bool.not_eq_true]
    intro hsame
    rw [firstNamed_congr hps (hqs p hp).hashable (hqs q hq).hashable hsame] at hlt
    exact lt_irrefl _ hlt
  refine { found := ?found, unknown := ?unknown, apart := hapart, listed := ?listed, ordered := hordered,
           size := List.length_map _, toggles := ?toggles }
  case found =>
    intro name p
    rw [get_eq_ok_iff, h.find]
  case unknown =>
    intro name _
    rw [get_eq_error_iff, h.find, lastNamed_eq_none_iff]
  case listed =>
    intro name
    have hnone : r.find? name = none ↔ ∀ p ∈ ps, p.name.same name = false := by
      rw [h.find, lastNamed_eq_none_iff]
    unfold find? at hnone
    rw [← not_iff_not]
    simpa [names] using hnone
  case toggles =>
    intro key
    have hpairs : r.policies.Pairwise fun p q => p.name.same q.name = false := List.pairwise_map.1 hapart
    have hcurrent : ∀ q ∈ r.policies, lastNamed q.name ps = some q := by
      intro q hq
      rw [← h.find]
      exact find?_of_pairwise hpairs hq (hqs q hq).same_self
    have hpolicies : (r.names.filterMap fun n => lastNamed n ps) = r.policies := by
      unfold names
      rw [List.filterMap_map]
      exact (List.filterMap_congr hcurrent).trans List.filterMap_some
    rw [hpolicies]
    rfl

/-! ## The host's table -/

/-- **The first mode with a toggle key** is the mode of that key in the host's table. -/
theorem byToggleKey?_eq_toggleTable {S : Settings} (h : S.Sound) {key : Value} (hset : key.truthy = true) :
    (S.registry.byToggleKey? key).map Policy.name = Value.find? key (Host.toggleTable S) := by
  have hpolicies : S.registry.policies = S.modes := ofList_policies S.modes h.names
  -- what is the same as a key that is set is set
  have hpred : ∀ p : Policy,
      (p.toggleKey.truthy = true ∧ p.toggleKey.same key = true) ↔ p.toggleKey.same key = true := by
    intro p
    rw [and_iff_right_iff_imp]
    intro hsame
    rw [Value.truthy_of_same hsame, hset]
  unfold byToggleKey? Value.find?
  rw [Host.toggleTable_eq h, hpolicies, List.find?_map, Option.map_map]
  unfold Host.toggled
  rw [List.find?_filter]
  simp only [Function.comp_def, hpred, Bool.decide_eq_true]

/-- **A registry** after any policies were registered, under any names that may be keys: each name gives the policy
that was registered last under it, and is unknown only if none was; the names are those that were registered, each once,
where it was registered first; and a toggle key gives the policy of the first of them that has it now. The modes of
settings that were read are found by their toggle keys as in the host's table, if these may be keys and are equal to
themselves; whether the table then finds the very object or an equal one makes no difference. -/
theorem registry_tells :
    (∀ ps : List Policy, (∀ p ∈ ps, p.name.IsKey) → (ofList ps).Tells ps) ∧
    ∀ (entries : List (Value × Value)) (S : Settings), Settings.ofData (.map entries) = .ok S →
      Settings.NamesApart entries → ∀ key : Value, key.truthy = true → key.IsKey →
        ∀ own : Value → Bool, (∀ k, own k = true → k = key) →
          Value.lookup own key (Host.toggleTable S) = .ok ((S.registry.byToggleKey? key).map Policy.name) := by
  constructor
  · intro ps hps
    exact (told_ofList hps).tells hps
  · intro entries S hS hnames key hset hkey own hown
    rw [Value.lookup_eq_find? hkey hown, byToggleKey?_eq_toggleTable (Settings.sound_of_ofData hS hnames) hset]

/-- the first built-in mode on another toggle key -/
def moved : Policy := { Policy.og with toggleKey := .str "f5" }

/-- registering a mode again takes its old toggle key away, and its place stays the first -/
theorem registry_tells_moved :
    (ofList [.og, .extra, moved]).Tells [.og, .extra, moved] ∧
    (ofList [.og, .extra, moved]).names = [.str "og", .str "extra"] ∧
    (ofList [.og, .extra, moved]).byToggleKey? (.str "pause") = none ∧
    (ofList [.og, .extra, moved]).get (.str "nope") = .error (.unknownMode (.str "nope")) ∧
    Value.lookup (· = .str "pause") (.str "pause") (Host.toggleTable {}) =
      .ok (((Settings.registry {}).byToggleKey? (.str "pause")).map Policy.name) := by
  have hkeys : ∀ p ∈ [Policy.og, .extra, moved], p.name.IsKey := by
    simp only [List.forall_mem_cons]
    exact ⟨⟨rfl, rfl⟩, ⟨rfl, rfl⟩, ⟨rfl, rfl⟩, List.forall_mem_nil _⟩
  have htells := registry_tells.1 _ hkeys
  refine ⟨htells, by decide +kernel, ?_, ?_, ?_⟩
  · rw [← Option.isNone_iff_eq_none]
    decide +kernel
  · rw [htells.unknown _ rfl]
    decide +kernel
  · exact registry_tells.2 [] {} Settings.ofData_empty (fun _ h => by cases h) _ rfl ⟨rfl, rfl⟩ _
      fun _ h => of_decide_eq_true h

/-- a mode whose toggle key is "not a number" -/
def nanToggled : Value := .map [(.str "modes", .map [(.str "m", .map [
  (.str "toggle_key", .float Decimal.nan),
  (.str "phases", .list [.map [(.str "key", .str "a"), (.str "mean_ms", .int 500)]])])])]

/-- **A toggle key that is not equal to itself** is accepted. The host's table finds the mode by the very object, and
the registry finds none. For a list the registry finds none either, and the table cannot be asked. -/
theorem nanToggle_disagrees : ∃ S, Settings.ofData nanToggled = .ok S ∧
    (S.registry.byToggleKey? (.float Decimal.nan)).isNone = true ∧
    Value.lookup (· = .float Decimal.nan) (.float Decimal.nan) (Host.toggleTable S) = .ok (some (.str "m")) ∧
    (S.registry.byToggleKey? (.list [.int 1])).isNone = true ∧
    (Value.lookup (· = .list [.int 1]) (.list [.int 1]) (Host.toggleTable S)).isOk = false := by
  obtain ⟨S, hS, h⟩ := Settings.exists_of_any nanToggled (fun S => decide (
    (S.registry.byToggleKey? (.float Decimal.nan)).isNone = true ∧
    Value.lookup (· = .float Decimal.nan) (.float Decimal.nan) (Host.toggleTable S) = .ok (some (.str "m")) ∧
    (S.registry.byToggleKey? (.list [.int 1])).isNone = true ∧
    (Value.lookup (· = .list [.int 1]) (.list [.int 1]) (Host.toggleTable S)).isOk = false)) (by decide +kernel)
  exact ⟨S, hS, of_decide_eq_true h⟩

end Registry
end KeyHold
