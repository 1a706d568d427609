import Mathlib.Data.List.Induction
import Mathlib.Data.List.Nodup
import VertexPrograms.Aggregation.Registry

/-!
# Passes at boundaries

A registration is due at the multiples of its interval. Whoever reaches a number of updates runs
what is due at it, so that however the numbers up to some count are handed to the registry, and
whatever the passes come to, each registration runs as often as its interval goes into the count.
-/

namespace VertexPrograms

variable {V E : Type}

namespace Registration

variable {a : Registration V E}

/-- The registration after so many passes more. -/
def ran (a : Registration V E) (n : Nat) : Registration V E := { a with runs := a.runs + n }

@[simp] theorem ran_key (a : Registration V E) (n : Nat) : (a.ran n).key = a.key := rfl

@[simp] theorem ran_interval (a : Registration V E) (n : Nat) : (a.ran n).interval = a.interval :=
  rfl

@[simp] theorem ran_runs (a : Registration V E) (n : Nat) : (a.ran n).runs = a.runs + n := rfl

/-- When a pass is due does not depend on how often it has run. -/
@[simp] theorem isDue_ran (a : Registration V E) (n count : Nat) :
    (a.ran n).isDue count = a.isDue count := rfl

@[simp] theorem ran_zero (a : Registration V E) : a.ran 0 = a := rfl

/-- Passes that have run are added up. -/
@[simp] theorem ran_ran (a : Registration V E) (m n : Nat) : (a.ran m).ran n = a.ran (m + n) := by
  rw [ran, ran, ran, Nat.add_assoc]

/-- A pass is due after an update if its interval divides the number of the update. -/
theorem isDue_succ (a : Registration V E) (c : Nat) :
    a.isDue (c + 1) = decide (a.interval ∣ c + 1) := by
  have hpos (h : a.interval ∣ c + 1) : 0 < a.interval := Nat.pos_of_dvd_of_pos h (Nat.succ_pos c)
  rw [isDue, Bool.eq_iff_iff]
  simp only [Bool.and_eq_true, decide_eq_true_eq, beq_iff_eq, Nat.succ_pos,
    and_true, ← Nat.dvd_iff_mod_eq_zero]
  exact ⟨fun h => h.2, fun h => ⟨hpos h, h⟩⟩

/-- The boundaries up to a count, one more. -/
theorem div_succ (a : Registration V E) (c : Nat) :
    (c + 1) / a.interval = c / a.interval + (a.isDue (c + 1)).toNat := by
  rw [Nat.succ_div, isDue_succ]
  by_cases h : a.interval ∣ c + 1 <;> simp [h]

/-- There are as many boundaries up to a count as the interval goes into it, and none without an
interval. -/
theorem countP_isDue (a : Registration V E) (c : Nat) :
    (List.range' 1 c).countP a.isDue = c / a.interval := by
  induction c with
  | zero => simp
  | succ c ih =>
    rw [List.range'_1_concat, List.countP_append, ih, div_succ, Nat.add_comm 1 c]
    cases h : a.isDue (c + 1) <;> simp [h]

end Registration

namespace Registry

variable {r : Registry V E} {entries : List (Registration V E)} {key : String}

/-- The keys, in the order in which they run. -/
def keys (r : Registry V E) : List String := r.entries.map (·.key)

/-- If no key is registered twice, a key has one place. -/
theorem eq_of_key (h : r.keys.Nodup) {i j : Nat} {a b : Registration V E}
    (ha : r.entries[i]? = some a) (hb : r.entries[j]? = some b) (hkey : a.key = b.key) : i = j := by
  have hi : r.keys[i]? = some a.key := by rw [keys, List.getElem?_map, ha]; rfl
  have hj : r.keys[j]? = some b.key := by rw [keys, List.getElem?_map, hb]; rfl
  have hlt : i < r.keys.length := (List.getElem?_eq_some_iff.mp hi).1
  exact (List.getElem?_inj hlt h).mp (by rw [hi, hj, hkey])

/-! # Registering -/

/-- The keys after a registration: a new key comes last, any other keeps its place. -/
theorem keys_put (new : Registration V E) (entries : List (Registration V E)) :
    (put new entries).map (·.key) =
      if new.key ∈ entries.map (·.key) then entries.map (·.key)
        else entries.map (·.key) ++ [new.key] := by
  induction entries with
  | nil => simp [put]
  | cons old rest ih =>
    rw [put]
    by_cases hold : old.key = new.key
    · simp [hold]
    · rw [if_neg (by simpa using hold), List.map_cons, List.map_cons, ih]
      by_cases hmem : new.key ∈ rest.map (·.key)
      · rw [if_pos hmem, if_pos (List.mem_cons_of_mem _ hmem)]
      · rw [if_neg hmem, if_neg (by simp [Ne.symm hold, hmem]), List.cons_append]

/-- A key that is registered is found with what was registered last. -/
theorem find?_put (new : Registration V E) (entries : List (Registration V E)) (key : String) :
    (put new entries).find? (·.key == key) =
      if new.key = key then some new else entries.find? (·.key == key) := by
  induction entries with
  | nil => by_cases h : new.key = key <;> simp [put, h]
  | cons old rest ih =>
    rw [put]
    by_cases hold : old.key = new.key
    · by_cases h : new.key = key <;> simp [hold, h]
    · rw [if_neg (by simpa using hold), List.find?_cons, List.find?_cons, ih]
      by_cases h : new.key = key
      · rw [if_pos h, if_pos h]
        have hne : (old.key == key) = false := by simpa [← h] using hold
        rw [hne]
      · rw [if_neg h, if_neg h]

/-- Registering never registers a key twice. -/
theorem nodup_put (h : r.keys.Nodup) (new : Registration V E) :
    (keys ⟨put new r.entries⟩).Nodup := by
  rw [keys, keys_put]
  split
  · exact h
  · rename_i hnew
    exact List.nodup_append.mpr ⟨h, List.nodup_singleton _, by grind⟩

/-- A call by which an aggregator is registered. -/
structure Call (V E : Type) where
  key : String
  pass : Pass V E
  interval : Nat

/-- The registration that a call stands for, which has not run. -/
def Call.entry (c : Call V E) : Registration V E :=
  { key := c.key, interval := c.interval, pass := c.pass }

/-- The registry after a call, which a key without characters leaves as it is. -/
def after (r : Registry V E) (c : Call V E) : Registry V E :=
  match r.register c.key c.pass c.interval with
  | .ok r => r
  | .error _ => r

/-- The registry after calls in a row. -/
def afterAll (r : Registry V E) (calls : List (Call V E)) : Registry V E := calls.foldl after r

theorem after_of_empty {c : Call V E} (h : c.key.isEmpty = true) : r.after c = r := by
  rw [after, register, if_pos h]

theorem after_of_nonempty {c : Call V E} (h : ¬c.key.isEmpty = true) :
    r.after c = ⟨put c.entry r.entries⟩ := by
  rw [after, register, if_neg h]
  rfl

/-- The keys of the calls that are not refused. -/
def accepted (calls : List (Call V E)) : List String :=
  (calls.map (·.key)).filter fun key => !key.isEmpty

/-- A key that is new goes to the end, in the order of the first calls, and a key that is there
keeps its place. -/
theorem keys_afterAll (r : Registry V E) (calls : List (Call V E)) :
    (r.afterAll calls).keys = r.keys ++ ((accepted calls).removeAll r.keys).eraseDups := by
  induction calls using List.reverseRecOn with
  | nil => simp [afterAll, accepted, List.removeAll]
  | append_singleton calls c ih =>
    rw [afterAll, List.foldl_append, List.foldl_cons, List.foldl_nil, ← afterAll]
    by_cases hempty : c.key.isEmpty = true
    · rw [after_of_empty hempty, ih]
      simp [accepted, hempty]
    · have haccepted : accepted (calls ++ [c]) = accepted calls ++ [c.key] := by
        simp [accepted, hempty]
      rw [after_of_nonempty hempty, keys, keys_put, ← keys, ih, haccepted]
      by_cases hold : c.key ∈ r.keys
      · simp [Call.entry, hold, List.removeAll]
      · have hnew : (accepted calls ++ [c.key]).removeAll r.keys =
            (accepted calls).removeAll r.keys ++ [c.key] := by
          simp [List.removeAll, hold]
        rw [hnew, List.eraseDups_append]
        by_cases hseen : c.key ∈ accepted calls
        · simp [Call.entry, hold, hseen, List.removeAll]
        · simp [Call.entry, hold, hseen, List.removeAll, List.eraseDups_cons]

/-- A key has what the last call for it said and has not run since, or is as it was if there was no
call for it. -/
theorem find?_afterAll (r : Registry V E) (calls : List (Call V E)) (key : String) :
    (r.afterAll calls).find? key =
      (((calls.filter fun c => !c.key.isEmpty).reverse.find? (·.key == key)).map Call.entry).or
        (r.find? key) := by
  induction calls using List.reverseRecOn with
  | nil => rfl
  | append_singleton calls c ih =>
    rw [afterAll, List.foldl_append, List.foldl_cons, List.foldl_nil, ← afterAll]
    by_cases hempty : c.key.isEmpty = true
    · rw [after_of_empty hempty, ih]
      simp [hempty]
    · have hlast : ((calls ++ [c]).filter fun c => !c.key.isEmpty).reverse =
          c :: (calls.filter fun c => !c.key.isEmpty).reverse := by simp [hempty]
      rw [after_of_nonempty hempty, find?, find?_put, ← find?, ih, hlast, List.find?_cons]
      by_cases hkey : c.key = key
      · subst hkey
        simp [Call.entry]
      · have hne : (c.key == key) = false := by simpa using hkey
        rw [hne]
        simp [Call.entry, hkey]

/-- Calls never register a key twice. -/
theorem nodup_afterAll (h : r.keys.Nodup) (calls : List (Call V E)) :
    (r.afterAll calls).keys.Nodup := by
  induction calls generalizing r with
  | nil => exact h
  | cons c calls ih =>
    refine ih ?_
    by_cases hempty : c.key.isEmpty = true
    · rwa [after_of_empty hempty]
    · rw [after_of_nonempty hempty]
      exact nodup_put h _

/-! # Running -/

/-- The registrations that are chosen have run once more, whatever their passes came to. -/
theorem entries_runWhere (chosen : Registration V E → Bool) (t : Topology) (c : Cells V E)
    (entries : List (Registration V E)) (g : Globals) :
    (runWhere chosen t c entries g).entries = entries.map fun a => a.ran (chosen a).toNat := by
  induction entries generalizing g with
  | nil => rfl
  | cons a rest ih =>
    rw [runWhere]
    cases hchosen : chosen a with
    | true => simp [ih, hchosen, Registration.ran]
    | false => simp [ih, hchosen]

/-- The registrations that are chosen run in order, and those after a pass that fails run as well.
-/
theorem outcomes_runWhere (chosen : Registration V E → Bool) (t : Topology) (c : Cells V E)
    (entries : List (Registration V E)) (g : Globals) :
    (runWhere chosen t c entries g).outcomes.map (·.key) = (entries.filter chosen).map (·.key) := by
  induction entries generalizing g with
  | nil => rfl
  | cons a rest ih =>
    rw [runWhere]
    cases hchosen : chosen a <;> simp [ih, hchosen]

/-- Registrations run their passes one after another, each on the globals that the one before it has
left, even if that one has failed: what they come to, in order, and the globals that the last one
leaves. -/
inductive Passes (t : Topology) (c : Cells V E) :
    List (Registration V E) → Globals → List Outcome → Globals → Prop
  | done {g : Globals} : Passes t c [] g [] g
  | pass {a : Registration V E} {rest : List (Registration V E)} {outcomes : List Outcome}
      {result : Except Fault Unit} {g g' g'' : Globals} (hpass : a.pass t c g = (result, g'))
      (hrest : Passes t c rest g' outcomes g'') :
      Passes t c (a :: rest) g (⟨a.key, faultOf? result⟩ :: outcomes) g''

/-- The passes of the registrations that are chosen run one after another, and no others. -/
theorem passes_runWhere (chosen : Registration V E → Bool) (t : Topology) (c : Cells V E)
    (entries : List (Registration V E)) (g : Globals) :
    Passes t c (entries.filter chosen) g (runWhere chosen t c entries g).outcomes
      (runWhere chosen t c entries g).globals := by
  induction entries generalizing g with
  | nil => exact .done
  | cons a rest ih =>
    rw [runWhere]
    cases hchosen : chosen a with
    | true =>
      rw [List.filter_cons_of_pos hchosen]
      exact .pass rfl (ih _)
    | false =>
      rw [List.filter_cons_of_neg (by simp [hchosen])]
      exact ih g

/-- How often registrations have run makes no difference to their passes. -/
theorem Passes.of_ran {t : Topology} {c : Cells V E} {n : Registration V E → Nat}
    {outcomes : List Outcome} {g g' : Globals}
    (h : Passes t c (entries.map fun a => a.ran (n a)) g outcomes g') :
    Passes t c entries g outcomes g' := by
  induction entries generalizing g outcomes with
  | nil =>
    cases h
    exact .done
  | cons a rest ih =>
    cases h with
    | pass hpass hrest => exact .pass (a := a) hpass (ih hrest)

/-- What is due after an update runs in order, and nothing else does. -/
theorem passes_onUpdate (r : Registry V E) (count : Nat) (t : Topology) (c : Cells V E)
    (g : Globals) :
    Passes t c (r.entries.filter (·.isDue count)) g (r.onUpdate count t c g).outcomes
      (r.onUpdate count t c g).globals :=
  passes_runWhere ..

/-- Registrations that are due have run once more after an update, and the others have not. -/
theorem entries_onUpdate (r : Registry V E) (count : Nat) (t : Topology) (c : Cells V E)
    (g : Globals) : (r.onUpdate count t c g).entries = r.entries.map fun a =>
      a.ran (a.isDue count).toNat :=
  entries_runWhere ..

/-- The passes that run are those that are due, in their order. -/
theorem outcomes_onUpdate (r : Registry V E) (count : Nat) (t : Topology) (c : Cells V E)
    (g : Globals) : (r.onUpdate count t c g).outcomes.map (·.key) = r.due count :=
  outcomes_runWhere ..

/-- The keys that are due are keys of the registry, in their order. -/
theorem due_sublist (r : Registry V E) (count : Nat) : (r.due count).Sublist r.keys :=
  List.filter_sublist.map _

/-- Which keys are due does not depend on how often their passes have run. -/
theorem due_map_ran (entries : List (Registration V E)) (n : Registration V E → Nat) (count : Nat) :
    due ⟨entries.map fun a => a.ran (n a)⟩ count = due ⟨entries⟩ count := by
  simp [due, List.filter_map, Function.comp_def]

/-- Whether a key is due is up to its interval, if no key is registered twice. -/
theorem count_due (h : r.keys.Nodup) {a : Registration V E} (ha : a ∈ r.entries) (count : Nat) :
    (r.due count).count a.key = (a.isDue count).toNat := by
  have hnodup := (r.due_sublist count).nodup h
  have hmem : a.key ∈ r.due count ↔ a.isDue count = true := by
    rw [due, List.mem_map]
    constructor
    · rintro ⟨b, hb, hkey⟩
      obtain ⟨hb, hdue⟩ := List.mem_filter.mp hb
      rwa [← List.inj_on_of_nodup_map h hb ha hkey]
    · intro hdue
      exact ⟨a, List.mem_filter.mpr ⟨ha, hdue⟩, rfl⟩
  rw [hnodup.count]
  cases hdue : a.isDue count <;> simp [hmem, hdue]

/-- A number of updates as it reaches the registry, with the data and the globals of that moment. -/
structure Delivery (V E : Type) where
  count : Nat
  topology : Topology
  cells : Cells V E
  globals : Globals

/-- The registry after it has run what is due. -/
def deliver (r : Registry V E) (d : Delivery V E) : Registry V E :=
  ⟨(r.onUpdate d.count d.topology d.cells d.globals).entries⟩

/-- Each registration runs once for every boundary among the numbers. -/
theorem entries_deliver (r : Registry V E) (ds : List (Delivery V E)) :
    (ds.foldl deliver r).entries = r.entries.map fun a =>
      a.ran ((ds.map (·.count)).countP a.isDue) := by
  induction ds generalizing r with
  | nil => simp
  | cons d ds ih =>
    rw [List.foldl_cons, ih, deliver, entries_onUpdate, List.map_map]
    refine List.map_congr_left fun a _ => ?_
    cases hdue : a.isDue d.count <;> simp [hdue, Nat.add_comm, Function.comp_def]

/-- Each boundary of each key fires once. -/
structure FiresOnce (r : Registry V E) : Prop where
  /-- What runs at a number is what is due, in order, whatever the passes come to. -/
  due : ∀ (count : Nat) (t : Topology) (c : Cells V E) (g : Globals),
    (r.onUpdate count t c g).outcomes.map (·.key) = r.due count
  /-- The outcomes and the globals are those of the passes that are due. -/
  passes : ∀ (count : Nat) (t : Topology) (c : Cells V E) (g : Globals),
    Passes t c (r.entries.filter (·.isDue count)) g (r.onUpdate count t c g).outcomes
      (r.onUpdate count t c g).globals
  ordered : ∀ count, (r.due count).Sublist r.keys
  once : ∀ count, (r.due count).Nodup
  /-- In whatever order the numbers up to a count come, each key runs as often as its interval goes
  into it. -/
  deliveries : ∀ (ds : List (Delivery V E)) (count : Nat),
    (ds.map (·.count)).Perm (List.range' 1 count) →
    (ds.foldl deliver r).entries = r.entries.map fun a => a.ran (count / a.interval)

/-- A registry in which no key is registered twice fires each boundary once. -/
theorem firesOnce (h : r.keys.Nodup) : r.FiresOnce where
  due := r.outcomes_onUpdate
  passes := r.passes_onUpdate
  ordered := r.due_sublist
  once count := (r.due_sublist count).nodup h
  deliveries := by
    intro ds count hperm
    rw [entries_deliver]
    refine List.map_congr_left fun a _ => ?_
    rw [hperm.countP_eq, a.countP_isDue]

end Registry

end VertexPrograms
