import Mathlib.Data.List.Forall2
import Mathlib.Data.List.Induction
import Mathlib.Data.List.Perm.Basic
import Mathlib.Data.List.ReduceOption
import VertexPrograms.Aggregation.Basic

/-!
# Dividing the work of a pass

A pass that is divided among threads combines the parts of the vertices, and those of the edges, in
an order and with a bracketing that nobody promises, and may put the identity in anywhere. If
combining is associative and commutative with the identity as neutral element, the total is the one
that comes of combining part after part: first those of the vertices, in order, and then those of
the edges.
-/

namespace VertexPrograms

variable {V E T : Type}

/-! # Reductions -/

/-- One way to bring parts together: any bracketing, with the identity in any places. -/
inductive Reduction (T : Type) where
  | identity
  | part (x : T)
  | join (left right : Reduction T)

namespace Reduction

/-- The parts that are brought together, from left to right. -/
def parts : Reduction T → List T
  | identity => []
  | part x => [x]
  | join left right => left.parts ++ right.parts

/-- What they are combined to. -/
def value (a : Aggregator V E T) : Reduction T → T
  | identity => a.identity
  | part x => x
  | join left right => a.combine (left.value a) (right.value a)

/-- The reduction that takes one part after another. -/
def inOrder (xs : List T) : Reduction T := xs.foldl (fun r x => r.join (.part x)) .identity

theorem inOrder_concat (xs : List T) (x : T) :
    inOrder (xs ++ [x]) = (inOrder xs).join (.part x) := by
  simp [inOrder]

/-- The division in order has the parts it was made of. -/
@[simp] theorem parts_inOrder (xs : List T) : (inOrder xs).parts = xs := by
  induction xs using List.reverseRecOn with
  | nil => rfl
  | append_singleton xs x ih => rw [inOrder_concat, parts, ih, parts]

/-- The division in order comes to the value of the fold. -/
@[simp] theorem value_inOrder (a : Aggregator V E T) (xs : List T) :
    (inOrder xs).value a = a.fold xs := by
  induction xs using List.reverseRecOn with
  | nil => rfl
  | append_singleton xs x ih =>
    rw [inOrder_concat, value, ih, value, Aggregator.fold, Aggregator.fold, List.foldl_concat]

end Reduction

/-! # Rows of results -/

section Results

variable {α β γ ε : Type} {f : α → Except ε β} {h : α → Except ε (Option β)}

/-- Either all results of a row are there, or one of them is missing. -/
theorem mapM_cases (f : α → Except ε β) (l : List α) :
    (∃ ys, l.mapM f = .ok ys ∧ List.Forall₂ (fun x y => f x = .ok y) l ys) ∨
      ∃ e, l.mapM f = .error e ∧ ∃ x ∈ l, f x = .error e := by
  induction l with
  | nil => exact .inl ⟨[], rfl, .nil⟩
  | cons x l ih =>
    rw [List.mapM_cons]
    cases hx : f x with
    | error e => exact .inr ⟨e, rfl, x, List.mem_cons_self, hx⟩
    | ok y =>
      rcases ih with ⟨ys, hys, hl⟩ | ⟨e, he, z, hz, hfz⟩
      · exact .inl ⟨y :: ys, by rw [hys]; rfl, .cons hx hl⟩
      · exact .inr ⟨e, by rw [he]; rfl, z, List.mem_cons_of_mem x hz, hfz⟩

/-- So it is with a row of results some of which are skipped. -/
theorem filterMapM_cases (h : α → Except ε (Option β)) (l : List α) :
    (∃ os, l.filterMapM h = .ok os.reduceOption ∧ List.Forall₂ (fun x o => h x = .ok o) l os) ∨
      ∃ e, l.filterMapM h = .error e ∧ ∃ x ∈ l, h x = .error e := by
  induction l with
  | nil => exact .inl ⟨[], rfl, .nil⟩
  | cons x l ih =>
    rw [List.filterMapM_cons]
    cases hx : h x with
    | error e => exact .inr ⟨e, rfl, x, List.mem_cons_self, hx⟩
    | ok o =>
      rcases ih with ⟨os, hos, hl⟩ | ⟨e, he, z, hz, hhz⟩
      · refine .inl ⟨o :: os, ?_, .cons hx hl⟩
        cases o with
        | none => exact hos
        | some y =>
          change (l.filterMapM h >>= fun ys => pure (y :: ys)) = _
          rw [hos]
          rfl
      · refine .inr ⟨e, ?_, z, List.mem_cons_of_mem x hz, hhz⟩
        cases o with
        | none => exact he
        | some y =>
          change (l.filterMapM h >>= fun ys => pure (y :: ys)) = _
          rw [he]
          rfl

/-- To skip what has no image and go on is to go on with the images. -/
theorem filterMapM_filterMap (k : α → Option γ) (h : γ → Except ε (Option β)) (l : List α) :
    (l.filterMap k).filterMapM h = l.filterMapM fun x => match k x with
      | some z => h z
      | none => .ok none := by
  induction l with
  | nil => rfl
  | cons x l ih =>
    rw [List.filterMapM_cons, List.filterMap_cons]
    cases hx : k x with
    | none => exact ih
    | some z =>
      rw [List.filterMapM_cons, ih]

/-- A row of results has no other results. -/
theorem forall₂_unique {l : List α} {ys zs : List β}
    (hy : List.Forall₂ (fun x y => f x = .ok y) l ys)
    (hz : List.Forall₂ (fun x y => f x = .ok y) l zs) : ys = zs := by
  induction hy generalizing zs with
  | nil =>
    cases hz
    rfl
  | cons hxy _ ih =>
    cases hz with
    | cons hxz htail => rw [Except.ok.inj (hxy.symm.trans hxz), ih htail]

/-- A row of results has a result in each place. -/
theorem forall₂_mem {l : List α} {ys : List β} (hl : List.Forall₂ (fun x y => f x = .ok y) l ys)
    {x : α} (hx : x ∈ l) : ∃ y, f x = .ok y := by
  induction hl with
  | nil => cases hx
  | cons hxy _ ih =>
    rcases List.mem_cons.mp hx with rfl | hx
    · exact ⟨_, hxy⟩
    · exact ih hx

end Results

namespace Aggregator

variable {a : Aggregator V E T} {g : Store V E} {table : Globals} {vs es : List T}

/-! # Totals -/

/-- Combining is associative and commutative, with the identity as neutral element. -/
structure Lawful (a : Aggregator V E T) : Prop where
  assoc : ∀ x y z, a.combine (a.combine x y) z = a.combine x (a.combine y z)
  comm : ∀ x y, a.combine x y = a.combine y x
  neutral : ∀ x, a.combine a.identity x = x

namespace Lawful

/-- A lawful fold of a row is combined from those of its two pieces. -/
theorem fold_append (h : a.Lawful) (xs ys : List T) : a.fold (xs ++ ys) = a.combine (a.fold xs)
    (a.fold ys) := by
  have hassoc : Std.Associative a.combine := ⟨h.assoc⟩
  calc a.fold (xs ++ ys)
      = ys.foldl a.combine (a.combine (a.fold xs) a.identity) := by
        rw [h.comm, h.neutral, fold, List.foldl_append]
        rfl
    _ = a.combine (a.fold xs) (a.fold ys) := List.foldl_assoc

/-- A lawful fold does not depend on the order of its parts. -/
theorem fold_perm (h : a.Lawful) {xs ys : List T} (hperm : xs.Perm ys) : a.fold xs = a.fold ys := by
  have hcomm : RightCommutative a.combine := ⟨fun x y z => by rw [h.assoc, h.comm y z, ← h.assoc]⟩
  exact hperm.foldl_eq a.identity

/-- However parts are brought together, the result is that of taking one after another. -/
theorem value_eq (h : a.Lawful) (r : Reduction T) : r.value a = a.fold r.parts := by
  induction r with
  | identity => rfl
  | part x => exact (h.neutral x).symm
  | join left right hleft hright =>
    rw [Reduction.value, hleft, hright, Reduction.parts, h.fold_append]

/-- However the parts of vertices and those of edges are brought together, the total is the same. -/
theorem combine_eq (h : a.Lawful) {left right : Reduction T} (hleft : left.parts.Perm vs)
    (hright : right.parts.Perm es) :
    a.combine (left.value a) (right.value a) = a.fold (vs ++ es) := by
  rw [h.value_eq, h.value_eq, h.fold_perm hleft, h.fold_perm hright, h.fold_append]

end Lawful

/-! # Passes -/

/-- All vertices and edges have been mapped: to the parts of the vertices, in order, and to those of
the edges that have one, in order. -/
structure Maps (a : Aggregator V E T) (g : Store V E) (vs es : List T) : Prop where
  vertices : List.Forall₂ (fun x part => a.mapVertex x.1 x.2 = .ok part) g.vertexList vs
  edges : ∃ parts, List.Forall₂ (fun x part => a.mapEdge x.1 x.2.1 x.2.2 = .ok part)
    g.edgeList parts ∧ es = parts.reduceOption

/-- What a pass can come to if its work is divided. The parts of the vertices are brought together
in some way, then those of the edges, and the two results are combined and finalized. If the mapping
of a vertex fails, or that of an edge after all vertices have been mapped, such a fault ends the
pass. -/
inductive Divided (a : Aggregator V E T) (g : Store V E) (table : Globals) :
    Except Fault Unit × Globals → Prop
  | finalized {vs es : List T} (hmaps : a.Maps g vs es) {left right : Reduction T}
      (hleft : left.parts.Perm vs) (hright : right.parts.Perm es) :
      Divided a g table ((a.finalize (a.combine (left.value a) (right.value a))).run table)
  | vertexFault {x : VertexId × V} (hx : x ∈ g.vertexList) {fault : Fault}
      (hfault : a.mapVertex x.1 x.2 = .error fault) : Divided a g table (.error fault, table)
  | edgeFault {vs : List T}
      (hvertices : List.Forall₂ (fun x part => a.mapVertex x.1 x.2 = .ok part) g.vertexList vs)
      {x : VertexId × VertexId × E} (hx : x ∈ g.edgeList) {fault : Fault}
      (hfault : a.mapEdge x.1 x.2.1 x.2.2 = .error fault) : Divided a g table (.error fault, table)

theorem vertexParts_eq (a : Aggregator V E T) (g : Store V E) :
    a.vertexParts g.topology g.cells = g.vertexList.mapM fun x => a.mapVertex x.1 x.2 := rfl

theorem edgeParts_eq (a : Aggregator V E T) (g : Store V E) :
    a.edgeParts g.topology g.cells = g.edgeList.filterMapM fun x => a.mapEdge x.1 x.2.1 x.2.2 := by
  rw [Store.edgeList, filterMapM_filterMap, edgeParts]
  refine congrArg (List.filterMapM · _) (funext fun ((i, j), data) => ?_)
  dsimp only
  cases g.topology.idAt? i with
  | none => rfl
  | some source => cases g.topology.idAt? j <;> rfl

/-- A pass that goes through the graph in order is one that may come of dividing it. -/
theorem divided_pass (a : Aggregator V E T) (g : Store V E) (table : Globals) :
    a.Divided g table (a.pass g.topology g.cells table) := by
  rw [pass, total, vertexParts_eq, edgeParts_eq]
  rcases mapM_cases (fun x : VertexId × V => a.mapVertex x.1 x.2) g.vertexList with
    ⟨vs, hvs, hvertices⟩ | ⟨fault, herror, x, hx, hfault⟩
  · rw [hvs]
    rcases filterMapM_cases (fun x : VertexId × VertexId × E => a.mapEdge x.1 x.2.1 x.2.2)
      g.edgeList with
      ⟨parts, hes, hedges⟩ | ⟨fault, herror, x, hx, hfault⟩
    · have hdivided : a.Divided g table _ := .finalized ⟨hvertices, parts, hedges, rfl⟩
        (.of_eq (Reduction.parts_inOrder vs)) (.of_eq (Reduction.parts_inOrder parts.reduceOption))
      rw [Reduction.value_inOrder, Reduction.value_inOrder] at hdivided
      rw [hes]
      exact hdivided
    · rw [herror]
      exact .edgeFault hvertices hx hfault
  · rw [herror]
    exact .vertexFault hx hfault

/-- There is one row of parts at most. -/
theorem Maps.unique {vs' es' : List T} (h : a.Maps g vs es) (h' : a.Maps g vs' es') :
    vs = vs' ∧ es = es' := by
  obtain ⟨parts, hparts, rfl⟩ := h.edges
  obtain ⟨parts', hparts', rfl⟩ := h'.edges
  have hedges : parts = parts' := forall₂_unique hparts hparts'
  exact ⟨forall₂_unique h.vertices h'.vertices, by rw [hedges]⟩

/-- If everything can be mapped, then however a pass is divided, it comes to combining part after
part. -/
theorem Lawful.divided_iff (h : a.Lawful) (hmaps : a.Maps g vs es)
    {outcome : Except Fault Unit × Globals} : a.Divided g table outcome ↔
    outcome = (a.finalize (a.fold (vs ++ es))).run table := by
  constructor
  · intro hdivided
    cases hdivided with
    | @finalized vs' es' hmaps' left right hleft hright =>
      obtain ⟨rfl, rfl⟩ := hmaps.unique hmaps'
      rw [h.combine_eq hleft hright]
    | @vertexFault x hx fault hfault =>
      obtain ⟨part, hpart⟩ := forall₂_mem hmaps.vertices hx
      rw [hfault] at hpart
      cases hpart
    | @edgeFault _ _ x hx fault hfault =>
      obtain ⟨parts, hparts, -⟩ := hmaps.edges
      obtain ⟨part, hpart⟩ := forall₂_mem hparts hx
      rw [hfault] at hpart
      cases hpart
  · rintro rfl
    have hleft : (Reduction.inOrder vs).parts.Perm vs := .of_eq (Reduction.parts_inOrder vs)
    have hright : (Reduction.inOrder es).parts.Perm es := .of_eq (Reduction.parts_inOrder es)
    rw [← h.combine_eq hleft hright]
    exact .finalized hmaps hleft hright

/-- Otherwise it ends with a fault and leaves the globals alone. -/
theorem Divided.fault_of_not_maps {outcome : Except Fault Unit × Globals}
    (h : a.Divided g table outcome) (hmaps : ¬∃ vs es, a.Maps g vs es) :
    ∃ fault, outcome = (.error fault, table) := by
  cases h with
  | @finalized vs es hmaps' => exact absurd ⟨vs, es, hmaps'⟩ hmaps
  | vertexFault hx hfault => exact ⟨_, rfl⟩
  | edgeFault hvertices hx hfault => exact ⟨_, rfl⟩

end Aggregator

end VertexPrograms
