import Mathlib.Data.List.Induction
import Mathlib.Data.List.Nodup
import Mathlib.Logic.Relation
import StyleBundler.Proofs.Graph

/-!
What a walk through the graph lists, and in which order. The visits are first told as they happen,
with no bound on how deep they go (`Visits`); that they end, and that the bounded walk makes just
these, is one fact (`visits_visit`), and all others are by induction on the visits. A module that is
met but not finished is on the way to every module still to be visited, so that a dependency that
was met and does not lead back is finished (`Visits.before`).
-/

namespace StyleBundler

/-- The two ways in which a graph grows. -/
inductive GraphCall where
  | addModule (m : ScriptModule)
  | addDependency (source target : Nat)

namespace ModuleGraph

def call (g : ModuleGraph) : GraphCall → ModuleGraph
  | .addModule m => (g.addModule m).2
  | .addDependency source target => g.addDependency source target

/-- The graph after a sequence of calls. -/
def ofCalls (calls : List GraphCall) : ModuleGraph := calls.foldl call empty

/-- There is an edge from the one number to the other. -/
def DependsOn (g : ModuleGraph) (i j : Nat) : Prop := j ∈ g.dependencies i

/-- There is a path along edges, perhaps an empty one. -/
def Reaches (g : ModuleGraph) : Nat → Nat → Prop := Relation.ReflTransGen g.DependsOn

variable {g : ModuleGraph} {w w' inner : Walk} {i j depth : Nat} {ids : List Nat}

/-! The edges of a graph -/

@[simp] theorem size_addDependency (g : ModuleGraph) (source target : Nat) :
    (g.addDependency source target).size = g.size := by
  simp [addDependency, size]

theorem DependsOn.lt_size (h : g.DependsOn i j) : i < g.size := by
  by_contra hge
  have hnone : g.nodes[i]? = none := List.getElem?_eq_none (Nat.le_of_not_lt hge)
  simp [DependsOn, dependencies, hnone] at h

/-- A new module depends on nothing. -/
theorem dependencies_addModule (g : ModuleGraph) (m : ScriptModule) (i : Nat) :
    (g.addModule m).2.dependencies i = g.dependencies i := by
  rw [addModule]
  split
  · rfl
  · simp only [dependencies]
    rcases Nat.lt_trichotomy i g.nodes.length with hlt | rfl | hgt
    · rw [List.getElem?_append_left hlt]
    · simp
    · rw [List.getElem?_eq_none (Nat.le_of_lt hgt), List.getElem?_eq_none]
      simp
      omega

theorem dependsOn_addDependency {source target : Nat} :
    (g.addDependency source target).DependsOn i j ↔
      g.DependsOn i j ∨ (i = source ∧ j = target ∧ source < g.size) := by
  simp only [DependsOn, dependencies, addDependency, List.getElem?_modify]
  by_cases hi : i = source
  · subst hi
    cases hnode : g.nodes[i]? with
    | none =>
        have hge : g.size ≤ i := List.getElem?_eq_none_iff.mp hnode
        simp
        omega
    | some n =>
        have hlt : i < g.size := (List.getElem?_eq_some_iff.mp hnode).1
        by_cases hmem : target ∈ n.dependencies
        · simp only [if_true, Option.map_eq_map, Option.map_some, Option.getD_some,
            List.contains_iff_mem, hmem, hlt, and_true, true_and]
          constructor
          · exact .inl
          · rintro (h | rfl)
            · exact h
            · exact hmem
        · simp [hmem, hlt]
  · simp [hi, Ne.symm hi]

/-- The edges of a graph are those that were added from modules it had by then. -/
theorem dependsOn_ofCalls {calls : List GraphCall} :
    (ofCalls calls).DependsOn i j ↔
      ∃ front back, calls = front ++ .addDependency i j :: back ∧ i < (ofCalls front).size := by
  induction calls using List.reverseRecOn with
  | nil => simp [ofCalls, DependsOn, dependencies, empty]
  | append_singleton calls c ih =>
      have hcalls : ofCalls (calls ++ [c]) = (ofCalls calls).call c := by
        simp [ofCalls]
      have hsplit : (∃ front back, calls ++ [c] = front ++ GraphCall.addDependency i j :: back ∧
            i < (ofCalls front).size) ↔
          (ofCalls calls).DependsOn i j ∨ (c = .addDependency i j ∧ i < (ofCalls calls).size) := by
        rw [ih]
        constructor
        · rintro ⟨front, back, heq, hlt⟩
          rcases List.eq_nil_or_concat' back with rfl | ⟨back, d, rfl⟩
          · obtain ⟨rfl, hc⟩ := List.append_inj' heq rfl
            exact .inr ⟨List.singleton_inj.mp hc, hlt⟩
          · rw [← List.cons_append, ← List.append_assoc] at heq
            exact .inl ⟨front, back, (List.append_inj' heq rfl).1, hlt⟩
        · rintro (⟨front, back, rfl, hlt⟩ | ⟨rfl, hlt⟩)
          · exact ⟨front, back ++ [c], by simp, hlt⟩
          · exact ⟨calls, [], rfl, hlt⟩
      rw [hcalls, hsplit]
      cases c with
      | addModule m => simp [call, DependsOn, dependencies_addModule]
      | addDependency source target =>
          simp only [call, dependsOn_addDependency, GraphCall.addDependency.injEq]
          constructor
          · rintro (h | ⟨rfl, rfl, hlt⟩)
            · exact .inl h
            · exact .inr ⟨⟨rfl, rfl⟩, hlt⟩
          · rintro (h | ⟨⟨rfl, rfl⟩, hlt⟩)
            · exact .inl h
            · exact .inr ⟨rfl, rfl, hlt⟩

/-! The visits of a walk -/

/-- The modules `ids` are visited in turn, each with its dependencies first; one that the walk has
met is passed over. -/
inductive Visits (g : ModuleGraph) : Walk → List Nat → Walk → Prop
  | done (w : Walk) : Visits g w [] w
  | met {w w' : Walk} {i : Nat} {ids : List Nat} (hmet : i ∈ w.visited)
      (hrest : Visits g w ids w') : Visits g w (i :: ids) w'
  | enter {w inner w' : Walk} {i : Nat} {ids : List Nat} (hunmet : i ∉ w.visited)
      (hinner : Visits g ⟨i :: w.visited, w.order⟩ (g.dependencies i) inner)
      (hrest : Visits g ⟨inner.visited, inner.order ++ [i]⟩ ids w') : Visits g w (i :: ids) w'

/-- Nothing is left open in what the visits come to. -/
theorem Visits.unique {w'' : Walk} (h : g.Visits w ids w') (h' : g.Visits w ids w'') :
    w'' = w' := by
  induction h generalizing w'' with
  | done w =>
      cases h'
      rfl
  | met hmet _ ih =>
      cases h' with
      | met _ hrest => exact ih hrest
      | enter hunmet _ _ => exact absurd hmet hunmet
  | enter hunmet _ _ ihinner ihrest =>
      cases h' with
      | met hmet _ => exact absurd hmet hunmet
      | enter _ hinner hrest =>
          obtain rfl := ihinner hinner
          exact ihrest hrest

/-- What visits add to a walk: `finished` are the modules that they met, in the order in which they
were finished with. -/
structure Finishes (g : ModuleGraph) (w : Walk) (ids : List Nat) (w' : Walk)
    (finished : List Nat) : Prop where
  order : w'.order = w.order ++ finished
  visited : ∀ i, i ∈ w'.visited ↔ i ∈ w.visited ∨ i ∈ finished
  nodup : finished.Nodup
  unmet : ∀ i ∈ finished, i ∉ w.visited
  reached : ∀ i ∈ finished, ∃ id ∈ ids, g.Reaches id i
  met : ∀ i ∈ ids, i ∈ w'.visited
  closed : ∀ i ∈ finished, ∀ j, g.DependsOn i j → j ∈ w'.visited

namespace Finishes

variable {finished rest : List Nat}

theorem nil (g : ModuleGraph) (w : Walk) : Finishes g w [] w [] :=
  ⟨by simp, by simp, .nil, nofun, nofun, nofun, nofun⟩

theorem cons (h : Finishes g w ids w' finished) (hmet : i ∈ w.visited) :
    Finishes g w (i :: ids) w' finished where
  order := h.order
  visited := h.visited
  nodup := h.nodup
  unmet := h.unmet
  reached k hk := by
    obtain ⟨id, hid, hreach⟩ := h.reached k hk
    exact ⟨id, List.mem_cons_of_mem _ hid, hreach⟩
  met := List.forall_mem_cons.mpr ⟨(h.visited i).mpr (.inl hmet), h.met⟩
  closed := h.closed

/-- A module behind those it leads to, and in front of those of the visits that follow. -/
theorem enter (hunmet : i ∉ w.visited)
    (hinner : Finishes g ⟨i :: w.visited, w.order⟩ (g.dependencies i) inner finished)
    (hrest : Finishes g ⟨inner.visited, inner.order ++ [i]⟩ ids w' rest) :
    Finishes g w (i :: ids) w' (finished ++ i :: rest) := by
  have hvisited : ∀ k, k ∈ w'.visited ↔
      k ∈ w.visited ∨ k ∈ finished ++ i :: rest := by
    intro k
    rw [hrest.visited, hinner.visited]
    simp only [List.mem_append, List.mem_cons]
    tauto
  have hgrown : ∀ k ∈ inner.visited, k ∈ w'.visited := fun k hk => (hrest.visited k).mpr (.inl hk)
  have hbehind : ∀ k ∈ rest, k ∉ w.visited ∧ k ≠ i ∧ k ∉ finished := by
    intro k hk
    have := hrest.unmet k hk
    rw [hinner.visited, List.mem_cons] at this
    tauto
  refine ⟨?order, hvisited, ?nodup, ?unmet, ?reached, ?met, ?closed⟩
  case order => rw [hrest.order, hinner.order]; simp
  case nodup =>
    refine List.nodup_append.mpr ⟨hinner.nodup, ?_, ?_⟩
    · exact List.nodup_cons.mpr ⟨fun h => (hbehind i h).2.1 rfl, hrest.nodup⟩
    · rintro a ha b hb rfl
      rcases List.mem_cons.mp hb with rfl | hb
      · exact hinner.unmet a ha List.mem_cons_self
      · exact (hbehind a hb).2.2 ha
  case unmet =>
    intro k hk
    rcases List.mem_append.mp hk with hk | hk
    · exact fun h => hinner.unmet k hk (List.mem_cons_of_mem _ h)
    · rcases List.mem_cons.mp hk with rfl | hk
      · exact hunmet
      · exact (hbehind k hk).1
  case reached =>
    intro k hk
    rcases List.mem_append.mp hk with hk | hk
    · obtain ⟨id, hid, hreach⟩ := hinner.reached k hk
      exact ⟨i, List.mem_cons_self, .head hid hreach⟩
    · rcases List.mem_cons.mp hk with rfl | hk
      · exact ⟨k, List.mem_cons_self, .refl⟩
      · obtain ⟨id, hid, hreach⟩ := hrest.reached k hk
        exact ⟨id, List.mem_cons_of_mem _ hid, hreach⟩
  case met => exact List.forall_mem_cons.mpr ⟨(hvisited i).mpr (.inr (by simp)), hrest.met⟩
  case closed =>
    intro k hk j hj
    rcases List.mem_append.mp hk with hk | hk
    · exact hgrown j (hinner.closed k hk j hj)
    · rcases List.mem_cons.mp hk with rfl | hk
      · exact hgrown j (hinner.met j hj)
      · exact hrest.closed k hk j hj

end Finishes

theorem Visits.exists_finishes (h : g.Visits w ids w') : ∃ finished, Finishes g w ids w' finished := by
  induction h with
  | done w => exact ⟨[], .nil g w⟩
  | met hmet _ ih =>
      obtain ⟨finished, hfinished⟩ := ih
      exact ⟨finished, hfinished.cons hmet⟩
  | enter hunmet _ _ ihinner ihrest =>
      obtain ⟨finished, hfinished⟩ := ihinner
      obtain ⟨rest, hrest⟩ := ihrest
      exact ⟨_, .enter hunmet hfinished hrest⟩

/-- The walk is on its way from each module that it met and did not finish with to all of `ids`. -/
def Walk.LeadsTo (g : ModuleGraph) (w : Walk) (ids : List Nat) : Prop :=
  ∀ i ∈ w.visited, i ∉ w.order → ∀ id ∈ ids, g.Reaches i id

theorem sublist_pair_of_mem {xs : List Nat} (hj : j ∈ xs) (i : Nat) (ys : List Nat) :
    [j, i].Sublist (xs ++ i :: ys) :=
  (List.singleton_sublist.mpr hj).append (List.singleton_sublist.mpr List.mem_cons_self)

/-- What the visits finish with stands behind its dependencies, unless these lead back to it. -/
theorem Visits.before (h : g.Visits w ids w') (hopen : w.LeadsTo g ids) (hi : i ∈ w'.order)
    (hnew : i ∉ w.order) (hedge : g.DependsOn i j) (hback : ¬g.Reaches j i) :
    [j, i].Sublist w'.order := by
  induction h with
  | done w => exact absurd hi hnew
  | met hmet _ ih =>
      exact ih (fun k hk hk' id hid => hopen k hk hk' id (List.mem_cons_of_mem _ hid)) hi hnew
  | @enter w inner w' m ids hunmet hinner hrest ihinner ihrest =>
      obtain ⟨finished, hf⟩ := hinner.exists_finishes
      obtain ⟨rest, hr⟩ := hrest.exists_finishes
      have horder : w'.order = (w.order ++ finished) ++ m :: rest := by
        rw [hr.order, hf.order]
        simp
      have hinnerOpen : Walk.LeadsTo g ⟨m :: w.visited, w.order⟩ (g.dependencies m) := by
        intro k hk hk' id hid
        have hmid : g.Reaches m id := .single hid
        rcases List.mem_cons.mp hk with rfl | hk
        · exact hmid
        · exact (hopen k hk hk' m List.mem_cons_self).trans hmid
      have hrestOpen : Walk.LeadsTo g ⟨inner.visited, inner.order ++ [m]⟩ ids := by
        intro k hk hk' id hid
        rw [hf.order, List.append_assoc, List.mem_append, List.mem_append, List.mem_singleton,
          not_or, not_or] at hk'
        rw [hf.visited, List.mem_cons] at hk
        refine hopen k ?_ hk'.1 id (List.mem_cons_of_mem _ hid)
        tauto
      by_cases hrestNew : i ∈ inner.order ++ [m]
      · rw [List.mem_append, List.mem_singleton] at hrestNew
        rcases hrestNew with hin | rfl
        · have := ihinner hinnerOpen hin hnew
          rw [horder, ← hf.order]
          exact this.trans (List.sublist_append_left _ _)
        · have hmet := (hf.visited j).mp (hf.met j hedge)
          rw [List.mem_cons] at hmet
          have hj : j ∈ w.order ++ finished := by
            rw [List.mem_append]
            rcases hmet with (rfl | hmet) | hmet
            · exact absurd .refl hback
            · by_contra hj
              rw [not_or] at hj
              exact hback (hopen j hmet hj.1 i List.mem_cons_self)
            · exact .inr hmet
          rw [horder]
          exact sublist_pair_of_mem hj i rest
      · exact ihrest hrestOpen hi hrestNew

/-! The bound of a walk -/

/-- The modules of the graph that are not among `visited`. -/
def unmet (g : ModuleGraph) (visited : List Nat) : List Nat := g.ids.filter (· ∉ visited)

theorem length_unmet_le {xs ys : List Nat} (h : ∀ i ∈ xs, i ∈ ys) :
    (g.unmet ys).length ≤ (g.unmet xs).length :=
  (List.monotone_filter_right g.ids fun i hi => by
    simp only [decide_eq_true_eq] at hi ⊢
    exact mt (h i) hi).length_le

theorem length_unmet_lt {xs : List Nat} (hi : i ∉ xs) (hsize : i < g.size) :
    (g.unmet (i :: xs)).length < (g.unmet xs).length := by
  have hsub : g.unmet (i :: xs) = (g.unmet xs).filter (· ≠ i) := by
    rw [unmet, unmet, List.filter_filter]
    refine List.filter_congr fun k _ => ?_
    simp [not_or]
  rw [hsub]
  refine List.length_filter_lt_length_iff_exists.mpr ⟨i, ?_, by simp⟩
  simp [unmet, ids, hi, hsize]

theorem visits_cons (h : g.Visits w [i] inner) (hrest : g.Visits inner ids w') :
    g.Visits w (i :: ids) w' := by
  cases h with
  | met hmet hdone =>
      cases hdone
      exact .met hmet hrest
  | enter hunmet hinner hdone =>
      cases hdone
      exact .enter hunmet hinner hrest

theorem visits_foldl {visit : Walk → Nat → Walk}
    (hvisit : ∀ w i, (g.unmet w.visited).length < depth → g.Visits w [i] (visit w i))
    (hdepth : (g.unmet w.visited).length < depth) : g.Visits w ids (ids.foldl visit w) := by
  induction ids generalizing w with
  | nil => exact .done w
  | cons i ids ih =>
      have hfirst := hvisit w i hdepth
      obtain ⟨finished, hfinished⟩ := hfirst.exists_finishes
      have hle := length_unmet_le (g := g) fun k hk => (hfinished.visited k).mpr (.inl hk)
      exact visits_cons hfirst (ih (Nat.lt_of_le_of_lt hle hdepth))

/-- A walk that can go deeper than there are modules left to meet makes all visits. -/
theorem visits_visit (hdepth : (g.unmet w.visited).length < depth) :
    g.Visits w [i] (g.visit depth w i) := by
  induction depth generalizing w i with
  | zero => exact absurd hdepth (Nat.not_lt_zero _)
  | succ depth ih =>
      simp only [visit, List.contains_iff_mem]
      split
      · next hmet => exact .met hmet (.done _)
      · next hunmet =>
          refine .enter hunmet ?_ (.done _)
          by_cases hsize : i < g.size
          · have hlt := length_unmet_lt hunmet hsize
            exact visits_foldl (fun w i => ih) (by dsimp only; omega)
          · have hnone : g.dependencies i = [] :=
              List.eq_nil_iff_forall_not_mem.mpr fun j hj => hsize (DependsOn.lt_size hj)
            rw [hnone]
            exact .done _

/-- The visits from a module end, and what they finish with is its dependency order. -/
theorem exists_visits_iff {order : List Nat} :
    (∃ visited, g.Visits ⟨[], []⟩ [i] ⟨visited, order⟩) ↔ order = g.dependencyOrder i := by
  have hvisits : g.Visits ⟨[], []⟩ [i] (g.visit (g.size + 1) ⟨[], []⟩ i) := by
    refine visits_visit (Nat.lt_succ_of_le ?_)
    simp [unmet, ids]
  constructor
  · rintro ⟨visited, h⟩
    exact congrArg Walk.order (hvisits.unique h)
  · rintro rfl
    exact ⟨_, hvisits⟩

/-- The list holds what `start` reaches, once, with `start` at its end, and a module behind each of
its dependencies that does not lead back to it. -/
structure IsDependencyOrder (g : ModuleGraph) (start : Nat) (order : List Nat) : Prop where
  nodup : order.Nodup
  mem_iff : ∀ i, i ∈ order ↔ g.Reaches start i
  last : order.getLast? = some start
  before : ∀ i ∈ order, ∀ j, g.DependsOn i j → ¬g.Reaches j i → [j, i].Sublist order

/-- From the visits of one module by a walk that has met none. -/
theorem Visits.isDependencyOrder {start : Nat} (h : g.Visits ⟨[], []⟩ [start] w) :
    g.IsDependencyOrder start w.order := by
  obtain ⟨order, hf⟩ := h.exists_finishes
  have horder : w.order = order := hf.order
  have hvisited : ∀ i, i ∈ w.visited ↔ i ∈ w.order := by
    intro i
    rw [hf.visited, horder]
    simp
  refine ⟨horder ▸ hf.nodup, ?mem, ?last, ?before⟩
  case mem =>
    intro i
    constructor
    · intro hi
      obtain ⟨id, hid, hreach⟩ := hf.reached i (horder ▸ hi)
      rwa [List.mem_singleton.mp hid] at hreach
    · intro hreach
      induction hreach with
      | refl => exact (hvisited start).mp (hf.met start (List.mem_singleton.mpr rfl))
      | tail _ hedge ih => exact (hvisited _).mp (hf.closed _ (horder ▸ ih) _ hedge)
  case last =>
    cases h with
    | met hmet _ => cases hmet
    | enter _ _ hdone =>
        cases hdone
        exact List.getLast?_concat
  case before =>
    intro i hi j hedge hback
    exact h.before (fun _ hk => nomatch hk) hi List.not_mem_nil hedge hback

/-- In every graph that calls make, the walk from any number ends, and it lists what that number
reaches along the edges that were added, dependencies in front unless they lead back. Where nothing
leads back to itself, all dependencies stand in front. -/
theorem isDependencyOrder_dependencyOrder (calls : List GraphCall) (start : Nat) :
    let g := ofCalls calls
    (∀ order, (∃ visited, g.Visits ⟨[], []⟩ [start] ⟨visited, order⟩) ↔
        order = g.dependencyOrder start) ∧
      (∀ i j, g.DependsOn i j ↔
        ∃ front back, calls = front ++ .addDependency i j :: back ∧ i < (ofCalls front).size) ∧
      g.IsDependencyOrder start (g.dependencyOrder start) ∧
      ((∀ i, ¬Relation.TransGen g.DependsOn i i) →
        ∀ i ∈ g.dependencyOrder start, ∀ j, g.DependsOn i j →
          [j, i].Sublist (g.dependencyOrder start)) := by
  intro g
  obtain ⟨visited, hvisits⟩ := exists_visits_iff.mpr (rfl : _ = g.dependencyOrder start)
  have hlisted := hvisits.isDependencyOrder
  refine ⟨fun order => exists_visits_iff, fun i j => dependsOn_ofCalls, hlisted, ?_⟩
  intro hacyclic i hi j hedge
  exact hlisted.before i hi j hedge fun hback => hacyclic i (.head' hedge hback)

/-- Two importers of one module, which depends on a number that no module has. -/
theorem isDependencyOrder_dependencyOrder_diamond :
    let calls : List GraphCall :=
      [.addModule (.ofSource ⟨"/main.js"⟩ ""), .addModule (.ofSource ⟨"/a.js"⟩ ""),
        .addModule (.ofSource ⟨"/b.js"⟩ ""), .addModule (.ofSource ⟨"/shared.js"⟩ ""),
        .addDependency 0 1, .addDependency 0 2, .addDependency 1 3, .addDependency 2 3,
        .addDependency 3 9]
    (ofCalls calls).dependencyOrder 0 = [9, 3, 1, 2, 0] ∧
      (ofCalls calls).IsDependencyOrder 0 [9, 3, 1, 2, 0] ∧
      ∀ i ∈ [9, 3, 1, 2, 0], ∀ j, (ofCalls calls).DependsOn i j →
        [j, i].Sublist [9, 3, 1, 2, 0] := by
  intro calls
  have horder : (ofCalls calls).dependencyOrder 0 = [9, 3, 1, 2, 0] := by decide +kernel
  obtain ⟨-, -, hlisted, hbefore⟩ := isDependencyOrder_dependencyOrder calls 0
  rw [horder] at hlisted hbefore
  refine ⟨horder, hlisted, hbefore ?_⟩
  -- Each edge goes to a greater number.
  have hedges : ∀ i < (ofCalls calls).size, ∀ j ∈ (ofCalls calls).dependencies i, i < j := by
    decide +kernel
  have hlt : ∀ i j, Relation.TransGen (ofCalls calls).DependsOn i j → i < j := by
    intro i j h
    have hstep : ∀ {k l}, (ofCalls calls).DependsOn k l → k < l :=
      fun hedge => hedges _ hedge.lt_size _ hedge
    induction h with
    | single hedge => exact hstep hedge
    | tail _ hedge ih => exact Nat.lt_trans ih (hstep hedge)
  exact fun i h => Nat.lt_irrefl i (hlt i i h)

end ModuleGraph
end StyleBundler
