import VertexPrograms.Aggregation.Summaries
import VertexPrograms.Proofs.Aggregation.Division
import VertexPrograms.Proofs.Engine.Rounds
import VertexPrograms.Proofs.Globals.Publishing
import VertexPrograms.Proofs.Graph.Listing

/-!
# What sums and counts publish

A sum or a count publishes its total under its target. It fails exactly if the target cannot be
given a value of that kind, and then it changes nothing; otherwise it changes the target only. None
of this depends on how the pass is divided among threads, and what a count publishes is the number
of vertices with the property, which fits.
-/

namespace VertexPrograms

namespace Globals

variable {α β : Type} {g : Globals} {key : String} {kind : Kind} {value : Value}

/-! # A publication run alone -/

/-- A routine is run by its first step and the rest. -/
theorem Routine.run_eq_step (r : Routine α) (g : Globals) :
    r.run g = (r.step g).1.run (r.step g).2 := by
  cases r <;> rfl

/-- What follows a routine is run on the table the routine leaves. -/
theorem Routine.run_bind (r : Routine α) (f : α → Routine β) (g : Globals) :
    (r.bind f).run g = (f (r.run g).1).run (r.run g).2 := by
  induction r generalizing g with
  | done result => rfl
  | call c next ih => exact ih _ _

/-- The key cannot be given a value of the kind: it is empty, or a constant, or has a value of
another kind. -/
def Blocks (g : Globals) (key : String) (kind : Kind) : Prop :=
  key = "" ∨ ∃ e, g.entry key = .ok e ∧ (e.constant = true ∨ e.value.kind ≠ .null ∧
    e.value.kind ≠ kind)

/-- A table that does not block a key takes a value of the kind. -/
theorem takes_of_not_blocks (h : ¬g.Blocks key kind) : key ≠ "" ∧ g.Takes key kind := by
  obtain ⟨hkey, hentry⟩ := not_or.mp h
  refine ⟨hkey, fun e he => ?_⟩
  obtain ⟨hconstant, hkind⟩ := not_or.mp fun hblocked => hentry ⟨e, he, hblocked⟩
  exact ⟨Bool.eq_false_iff.mpr hconstant, by tauto⟩

/-- A value of a kind that the key takes is published. -/
theorem run_publish_of_takes (hkey : key ≠ "") (htakes : g.Takes key value.kind) :
    ∃ g', (publish key value).run g = (.ok (), g') ∧ Holds g key value g' := by
  rw [Routine.run_eq_step, step_publish, Routine.run_eq_step]
  cases hpresent : g.contains key with
  | true =>
    obtain ⟨g', hstep, hholds⟩ := step_set hpresent htakes
    exact ⟨g', by rw [hstep]; rfl, hholds⟩
  | false =>
    obtain ⟨g', hstep, hholds⟩ := step_insert hkey hpresent
    exact ⟨g', by rw [hstep]; rfl, hholds⟩

/-- A value of a kind that the key cannot be given is refused. -/
theorem run_publish_of_blocks (hnamed : g.contains "" = false) (hblocks : g.Blocks key value.kind) :
    ∃ error, (publish key value).run g = (.error error, g) := by
  rw [Routine.run_eq_step, step_publish, Routine.run_eq_step]
  rcases hblocks with rfl | ⟨e, he, hreason⟩
  · rw [hnamed, step_writing_false, insert_eq, if_pos rfl]
    exact ⟨_, rfl⟩
  · have hpresent : g.contains key = true := contains_eq_true.mpr ⟨e, he⟩
    rw [hpresent, step_writing_true, set, update_of_ok he]
    by_cases hconstant : e.constant = true
    · rw [if_pos hconstant]
      exact ⟨_, rfl⟩
    · obtain ⟨hnull, hkind⟩ := hreason.resolve_left hconstant
      rw [if_neg hconstant, if_pos ⟨hnull, hkind.symm⟩]
      exact ⟨_, rfl⟩

end Globals

namespace Aggregator

variable {V E T : Type} {a : Aggregator V E T} {g : Store V E} {table : Globals} {target : String}
  {kind : Kind} {outcome : Except Fault Unit × Globals}

/-! # Aggregators that publish their total -/

/-- A publication of a pass is one of the table, with its error as a fault. -/
theorem run_publish (target : String) (value : Value) (table : Globals) :
    (publish target value).run table =
      (((Globals.publish target value).run table).1.mapError .ofError,
        ((Globals.publish target value).run table).2) := by
  rw [publish, Globals.Routine.run_bind]
  rfl

/-- A pass has published something of the kind under the target, or has failed because it cannot. -/
structure Published (table : Globals) (target : String) (kind : Kind)
    (outcome : Except Fault Unit × Globals) : Prop where
  others : ∀ other, other ≠ target → outcome.2.entry other = table.entry other
  fails : (∃ fault, outcome.1 = .error fault) ↔ table.Blocks target kind
  kept : (∃ fault, outcome.1 = .error fault) → outcome.2 = table

/-- Publishing a value either writes it, or is refused for the target. -/
theorem published_cases (hnamed : table.contains "" = false) (target : String) (value : Value) :
    (∃ table', (publish target value).run table = (.ok (), table') ∧
      Globals.Holds table target value table' ∧
        ¬table.Blocks target value.kind) ∨
      ∃ fault, (publish target value).run table = (.error fault, table) ∧
        table.Blocks target value.kind := by
  rw [run_publish]
  by_cases hblocks : table.Blocks target value.kind
  · obtain ⟨error, hrun⟩ := Globals.run_publish_of_blocks hnamed hblocks
    exact .inr ⟨.ofError error, by rw [hrun]; rfl, hblocks⟩
  · obtain ⟨hkey, htakes⟩ := Globals.takes_of_not_blocks hblocks
    obtain ⟨table', hrun, hholds⟩ := Globals.run_publish_of_takes hkey htakes
    exact .inl ⟨table', by rw [hrun]; rfl, hholds, hblocks⟩

theorem published_publish (hnamed : table.contains "" = false) (target : String) (value : Value) :
    Published table target value.kind ((publish target value).run table) := by
  rcases published_cases hnamed target value with ⟨table', hrun, hholds, hfree⟩ |
    ⟨fault, hrun, hblocks⟩
  · rw [hrun]
    have hok : ¬∃ fault, (Except.ok () : Except Fault Unit) = .error fault :=
      fun ⟨_, h⟩ => nomatch h
    exact ⟨hholds.others, iff_of_false hok hfree, fun h => absurd h hok⟩
  · rw [hrun]
    exact ⟨fun _ _ => rfl, iff_of_true ⟨fault, rfl⟩ hblocks, fun _ => rfl⟩

/-- No vertex and no edge is faulty, and the total is published as a value of the kind. -/
structure Publishes (a : Aggregator V E T) (target : String) (kind : Kind) : Prop where
  vertices : ∀ id data, ∃ part, a.mapVertex id data = .ok part
  edges : ∀ source target data, ∃ part, a.mapEdge source target data = .ok part
  total : ∀ total, ∃ value : Value, value.kind = kind ∧ a.finalize total = publish target value

/-- However its pass is divided, it comes to the publication of a value. -/
theorem Publishes.outcome_eq (h : a.Publishes target kind) (hdivided : a.Divided g table outcome) :
    ∃ value : Value, value.kind = kind ∧ outcome = (publish target value).run table := by
  cases hdivided with
  | finalized _ _ _ =>
    obtain ⟨value, hkind, hfinalize⟩ := h.total (a.combine _ _)
    exact ⟨value, hkind, by rw [hfinalize]⟩
  | @vertexFault x hx fault hfault =>
    obtain ⟨part, hpart⟩ := h.vertices x.1 x.2
    rw [hfault] at hpart
    cases hpart
  | @edgeFault _ _ x hx fault hfault =>
    obtain ⟨part, hpart⟩ := h.edges x.1 x.2.1 x.2.2
    rw [hfault] at hpart
    cases hpart

/-- So it publishes or fails because it cannot. -/
theorem Publishes.published (h : a.Publishes target kind) (hnamed : table.contains "" = false)
    (hdivided : a.Divided g table outcome) : Published table target kind outcome := by
  obtain ⟨value, rfl, rfl⟩ := h.outcome_eq hdivided
  exact published_publish hnamed target value

/-- And it publishes if the target takes values of the kind. -/
theorem Publishes.written (h : a.Publishes target kind) (htarget : target ≠ "")
    (htakes : table.Takes target kind) (hdivided : a.Divided g table outcome) :
    ∃ value table', value.kind = kind ∧ outcome = (.ok (), table') ∧
      Globals.Holds table target value table' := by
  obtain ⟨value, rfl, rfl⟩ := h.outcome_eq hdivided
  obtain ⟨table', hrun, hholds⟩ := Globals.run_publish_of_takes htarget htakes
  refine ⟨value, table', rfl, ?_, hholds⟩
  rw [run_publish, hrun]
  rfl

theorem publishes_vertexSum (target : String) (number : V → Float) :
    (vertexSum target number : Aggregator V E Float).Publishes target .float :=
  ⟨fun _ _ => ⟨_, rfl⟩, fun _ _ _ => ⟨_, rfl⟩, fun total => ⟨.float total, rfl, rfl⟩⟩

theorem publishes_vertexCount (target : String) (property : V → Bool) :
    (vertexCount target property : Aggregator V E Int64).Publishes target .integer :=
  ⟨fun _ _ => ⟨_, rfl⟩, fun _ _ _ => ⟨_, rfl⟩, fun total => ⟨.integer total, rfl, rfl⟩⟩

/-! # Counting -/

/-- The count of the vertices that pass a test, which may itself fail. -/
def countIf (target : String) (test : V → Except Fault Bool) : Aggregator V E Int64 :=
  { (vertexCount target fun _ : V => false : Aggregator V E Int64) with
    mapVertex := fun _ data => (fun holds => if holds then 1 else 0) <$> test data }

/-- Whether a test answers that it is passed. -/
def passes (test : V → Except Fault Bool) (data : V) : Bool :=
  match test data with
  | .ok holds => holds
  | .error _ => false

/-- To count is lawful, whatever is counted. -/
theorem lawful_countIf (target : String) (test : V → Except Fault Bool) :
    (countIf target test : Aggregator V E Int64).Lawful :=
  ⟨Int64.add_assoc, Int64.add_comm, Int64.zero_add⟩

variable {test : V → Except Fault Bool} {vs es : List Int64}

/-- What is counted has passed the test, and the sum of the parts is the number of such vertices. -/
private theorem fold_of_forall₂ {xs : List (VertexId × V)}
    (h : List.Forall₂ (fun x part => (countIf target test : Aggregator V E Int64).mapVertex x.1
      x.2 = .ok part) xs vs) :
    (∀ x ∈ xs, ∃ holds, test x.2 = .ok holds) ∧
      ∀ n : Nat, vs.foldl (· + ·)
        (Int64.ofNat n) = Int64.ofNat (n + xs.countP fun x => passes test x.2) := by
  induction h with
  | nil => exact ⟨fun _ hx => absurd hx List.not_mem_nil, fun _ => rfl⟩
  | @cons x part xs vs hpart _ ih =>
    obtain ⟨htests, hsum⟩ := ih
    obtain ⟨holds, hholds, rfl⟩ : ∃ holds, test x.2 = .ok holds ∧
        part = if holds then 1 else 0 := by
      cases htest : test x.2 with
      | error fault =>
        simp only [countIf, htest] at hpart
        cases hpart
      | ok holds =>
        simp only [countIf, htest] at hpart
        exact ⟨holds, rfl, (Except.ok.inj hpart).symm⟩
    refine ⟨fun y hy => ?_, fun n => ?_⟩
    · rcases List.mem_cons.mp hy with rfl | hy
      · exact ⟨holds, hholds⟩
      · exact htests y hy
    · have hpasses : passes test x.2 = holds := by rw [passes, hholds]
      rw [List.foldl_cons, List.countP_cons, hpasses]
      cases holds with
      | true =>
        have hone : Int64.ofNat n + 1 = Int64.ofNat (n + 1) := (Int64.ofNat_add n 1).symm
        rw [if_pos rfl, hone, hsum, if_pos rfl, Nat.add_right_comm, Nat.add_assoc]
      | false => exact (congrArg (List.foldl _ · vs) (Int64.add_zero _)).trans (hsum n)

/-- No edge is counted. -/
private theorem reduceOption_of_forall₂ {xs : List (VertexId × VertexId × E)}
    {parts : List (Option Int64)} (h : List.Forall₂ (fun x part =>
      (countIf target test : Aggregator V E Int64).mapEdge x.1 x.2.1 x.2.2 = .ok part) xs parts) :
    parts.reduceOption = [] := by
  induction h with
  | nil => rfl
  | cons hpart _ ih =>
    obtain rfl := Except.ok.inj hpart
    exact ih

/-- A count that succeeds has tested every vertex, and its target is the number of those that
passed. -/
theorem value_of_countIf (test : V → Except Fault Bool) (hg : g.Valid)
    (hnamed : table.contains "" = false)
    (hdivided : (countIf target test : Aggregator V E Int64).Divided g table outcome)
    (hok : outcome.1 = .ok ()) : (∀ x ∈ g.vertexList, ∃ holds, test x.2 = .ok holds) ∧ ∃ n : Int64,
    outcome.2.value target = .ok (.integer n) ∧
      n.toInt = g.vertexList.countP fun x => passes test x.2 := by
  by_cases hmaps : ∃ vs es, (countIf target test : Aggregator V E Int64).Maps g vs es
  · obtain ⟨vs, es, hmaps⟩ := hmaps
    obtain rfl := ((lawful_countIf target test).divided_iff hmaps).mp hdivided
    obtain ⟨parts, hparts, rfl⟩ := hmaps.edges
    obtain ⟨htests, hsum⟩ := fold_of_forall₂ hmaps.vertices
    have htotal : (countIf target test : Aggregator V E Int64).fold (vs ++ parts.reduceOption) =
        Int64.ofNat (g.vertexList.countP fun x => passes test x.2) := by
      rw [reduceOption_of_forall₂ hparts, List.append_nil]
      exact (hsum 0).trans (by rw [Nat.zero_add])
    have hlt : (g.vertexList.countP fun x => passes test x.2) < 2 ^ 63 := by
      have hcount :=
        List.countP_le_length (p := fun x : VertexId × V => passes test x.2) (l := g.vertexList)
      have hvertices := hg.topology.vertexCount_le
      rw [hg.length_vertexList, Store.vertexCount] at hcount
      omega
    refine ⟨htests, _, ?_, Int64.toInt_ofNat_of_lt hlt⟩
    rw [htotal] at hok ⊢
    rcases published_cases hnamed target (.integer (Int64.ofNat _)) with ⟨table', hrun, hholds, -⟩ |
      ⟨fault, hrun, -⟩
    · change ((publish target (.integer (Int64.ofNat _))).run table).2.value target = _
      rw [hrun, Globals.value, hholds.target]
      rfl
    · change ((publish target (.integer (Int64.ofNat _))).run table).1 = _ at hok
      rw [hrun] at hok
      cases hok
  · obtain ⟨fault, rfl⟩ := hdivided.fault_of_not_maps hmaps
    cases hok

end Aggregator

namespace Engine

variable {V E M P : Type}

/-- An aggregator that is asked for leaves the graph alone. -/
theorem store_aggregateNow (key : String) (e : Engine V E M P) :
    (aggregateNow key e).2.store = e.store := by
  rw [aggregateNow, Operation.during]
  split
  · split
    · dsimp only
      split <;> rfl
    · rfl
  · rfl

/-- So do those that are due. -/
theorem store_runDue (e : Engine V E M P) : e.runDue.store = e.store := by rw [runDue_eq]

end Engine

/-- How a pass is divided does not matter. If combining is associative and commutative with the
identity as neutral element, and all vertices and edges can be mapped, every division of the work
has the total that comes of combining the parts of all vertices in order and then those of the edges
that have one, and finalizes it; if the mapping fails somewhere, so does every pass, and the globals
stay as they were. The pass in order is one of the divisions. No pass changes the graph. A count
that succeeds leaves the exact number under its target. After any calls on a new table, sums and
counts change no other global, and they fail exactly if their target is empty, constant, or of
another kind, and then change nothing. -/
theorem Store.Built.division_immaterial {V E : Type} {g : Store V E} (h : g.Built) :
    (g.vertexList.length = g.vertexCount ∧ g.edgeList.length = g.edgeCount) ∧
    (∀ (T : Type) (a : Aggregator V E T) (table : Globals),
      a.Divided g table (a.pass g.topology g.cells table)) ∧
    (∀ (T : Type) (a : Aggregator V E T), a.Lawful → ∀ table outcome,
      (∀ vs es, a.Maps g vs es →
        (∀ left right : Reduction T, left.parts.Perm vs → right.parts.Perm es →
          a.combine (left.value a) (right.value a) = a.fold (vs ++ es)) ∧
        (a.Divided g table outcome ↔ outcome = (a.finalize (a.fold (vs ++ es))).run table)) ∧
      ((¬∃ vs es, a.Maps g vs es) → a.Divided g table outcome → ∃ fault,
        outcome = (.error fault, table))) ∧
    (∀ (M P : Type) (e : Engine V E M P) (key : String),
      (Engine.aggregateNow key e).2.store = e.store ∧ e.runDue.store = e.store) ∧
    ∀ (calls : List Globals.Call) (target : String) (outcome : Except Fault Unit × Globals),
      let table := ({} : Globals).after calls
      (∀ property, (VertexPrograms.vertexCount target property : Aggregator V E Int64).Divided g
        table outcome → Aggregator.Published table target .integer outcome ∧
          (outcome.1 = .ok () → ∃ n : Int64, outcome.2.value target = .ok (.integer n) ∧
            n.toInt = g.vertexList.countP fun x => property x.2)) ∧
      (∀ test, (Aggregator.countIf target test : Aggregator V E Int64).Divided g table outcome →
        outcome.1 = .ok () → (∀ x ∈ g.vertexList, ∃ holds, test x.2 = .ok holds) ∧
          ∃ n : Int64, outcome.2.value target = .ok (.integer n) ∧
            n.toInt = g.vertexList.countP fun x => Aggregator.passes test x.2) ∧
      (∀ number, (vertexSum target number : Aggregator V E Float).Divided g table outcome →
        Aggregator.Published table target .float outcome) := by
  refine ⟨⟨h.valid.length_vertexList, h.valid.length_edgeList⟩, fun _ a table =>
    a.divided_pass g table,
    fun _ a ha table outcome =>
      ⟨fun vs es hmaps => ⟨fun _ _ => ha.combine_eq, ha.divided_iff hmaps⟩,
      fun hmaps hdivided => hdivided.fault_of_not_maps hmaps⟩,
    fun _ _ e key => ⟨e.store_aggregateNow key, e.store_runDue⟩, fun calls target outcome => ?_⟩
  have hnamed : (({} : Globals).after calls).contains "" = false :=
    Globals.named_after Std.ExtTreeMap.contains_empty calls
  refine ⟨fun property hdivided => ⟨?_, fun hok => ?_⟩, fun test hdivided hok => ?_,
    fun number hdivided => ?_⟩
  · exact (Aggregator.publishes_vertexCount target property).published hnamed hdivided
  · exact (Aggregator.value_of_countIf (fun data => .ok (property data)) h.valid hnamed
      hdivided hok).2
  · exact Aggregator.value_of_countIf test h.valid hnamed hdivided hok
  · exact (Aggregator.publishes_vertexSum target number).published hnamed hdivided

/-- Counting even numbers in a row of three. -/
theorem Store.Built.division_immaterial_row :
    let g : Store Nat Nat := row 10 21 30 1 2
    let a : Aggregator Nat Nat Int64 := VertexPrograms.vertexCount "even" fun n => n % 2 == 0
    let outcome := a.pass g.topology g.cells {}
    g.Built ∧ a.Divided g {} outcome ∧ outcome.1 = .ok () ∧
      ∃ n : Int64, outcome.2.value "even" = .ok (.integer n) ∧ n.toInt = 2 := by
  intro g a outcome
  have hbuilt : g.Built := row_built ..
  obtain ⟨-, hpass, -, -, hcounts⟩ := hbuilt.division_immaterial
  have hdivided : a.Divided g {} outcome := hpass Int64 a {}
  have hok : outcome.1 = .ok () := rfl
  exact ⟨hbuilt, hdivided, hok, ((hcounts [] "even" outcome).1 _ hdivided).2 hok⟩

end VertexPrograms
