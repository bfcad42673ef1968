import StyleBundler.Proofs.Graph.Order

/-!
What a graph holds after any calls. The number of a module is its place among the first additions of
all paths, its source is that of the first addition, and its edges are the targets added since, each
where it first came up (`Records`). The same calls, made on four tables that are kept apart, lead
to the same modules, numbers and edges (`tables_ofCalls`), so that the tables always fit together.
-/

namespace StyleBundler

/-- The module that a call hands over. -/
def GraphCall.module? : GraphCall → Option ScriptModule
  | .addModule m => some m
  | .addDependency .. => none

namespace ModuleGraph

variable {g : ModuleGraph} {m : ScriptModule} {path path' : Path} {calls : List GraphCall}
  {i id source target : Nat}

/-! The parts of a graph -/

/-- The modules of the graph, in the order of their numbers. -/
def modules (g : ModuleGraph) : List ScriptModule := g.nodes.map (·.module)

/-- The edges of a module of the graph. -/
def edges? (g : ModuleGraph) (id : Nat) : Option (List Nat) :=
  (g.nodes[id]?).map (·.dependencies)

theorem length_modules (g : ModuleGraph) : g.modules.length = g.size := List.length_map _

theorem module?_eq (g : ModuleGraph) (id : Nat) : g.module? id = g.modules[id]? :=
  List.getElem?_map.symm

theorem find?_eq (g : ModuleGraph) (path : Path) :
    g.find? path = g.modules.findIdx? fun m => decide (m.path.Same path) := by
  rw [find?, modules, List.findIdx?_map]
  rfl

theorem addModule_of_some (h : g.find? m.path = some id) : g.addModule m = (id, g) := by
  rw [addModule, h]

theorem addModule_of_none (h : g.find? m.path = none) :
    g.addModule m = (g.size, ⟨g.nodes ++ [⟨m, []⟩]⟩) := by
  rw [addModule, h]

theorem modules_addDependency (g : ModuleGraph) (source target : Nat) :
    (g.addDependency source target).modules = g.modules := by
  refine List.ext_getElem? fun id => ?_
  simp only [modules, addDependency, List.getElem?_map, List.getElem?_modify, Option.map_eq_map,
    Option.map_map]
  refine congrFun (congrArg Option.map (funext fun n => ?_)) _
  dsimp only [Function.comp_apply]
  repeat' split
  all_goals rfl

theorem edges?_addDependency (g : ModuleGraph) (source target id : Nat) :
    (g.addDependency source target).edges? id = (g.edges? id).map fun targets =>
      if source = id ∧ target ∉ targets then targets ++ [target] else targets := by
  simp only [edges?, addDependency, List.getElem?_modify, Option.map_eq_map, Option.map_map]
  refine congrFun (congrArg Option.map (funext fun n => ?_)) _
  by_cases hid : source = id <;> by_cases hmem : target ∈ n.dependencies <;> simp [hid, hmem]

/-- An edge from a number that no module has is dropped. -/
theorem addDependency_of_le (h : g.size ≤ source) (target : Nat) :
    g.addDependency source target = g := by
  rw [addDependency, List.modify_eq_self h]

/-! Four tables -/

/-- A graph as tables: modules and edges by number, numbers by path, and the next number. -/
@[ext]
structure Tables where
  modules : Nat → Option ScriptModule
  numbers : Path → Option Nat
  edges : Nat → Option (List Nat)
  next : Nat

namespace Tables

def empty : Tables := ⟨fun _ => none, fun _ => none, fun _ => none, 0⟩

/-- A table with one more row, or with another one in its place. -/
def put {β : Type} (table : Nat → Option β) (id : Nat) (row : β) : Nat → Option β :=
  fun other => if other = id then some row else table other

def addModule (t : Tables) (m : ScriptModule) : Nat × Tables :=
  match t.numbers m.path with
  | some id => (id, t)
  | none =>
      (t.next,
        { modules := put t.modules t.next m
          numbers := fun path => if path.Same m.path then some t.next else t.numbers path
          edges := put t.edges t.next []
          next := t.next + 1 })

def addDependency (t : Tables) (source target : Nat) : Tables :=
  match t.edges source with
  | none => t
  | some targets =>
      if targets.contains target then t
      else { t with edges := put t.edges source (targets ++ [target]) }

def call (t : Tables) : GraphCall → Tables
  | .addModule m => (t.addModule m).2
  | .addDependency source target => t.addDependency source target

def ofCalls (calls : List GraphCall) : Tables := calls.foldl call empty

/-- Tables are compared in one row and in all others. -/
theorem eq_of_row {β : Type} {table table' : Nat → Option β} (id : Nat)
    (hown : table id = table' id) (hother : ∀ other, id ≠ other → table other = table' other) :
    table = table' := by
  funext other
  by_cases hid : id = other
  · exact hid ▸ hown
  · exact hother other hid

/-- A list that grows at its end, as a table. -/
theorem put_length {α β : Type} (f : α → β) (xs : List α) (x : α) :
    put (fun id => (xs[id]?).map f) xs.length (f x) = fun id => ((xs ++ [x])[id]?).map f := by
  funext id
  rw [put]
  rcases Nat.lt_trichotomy id xs.length with hlt | rfl | hgt
  · rw [if_neg (Nat.ne_of_lt hlt), List.getElem?_append_left hlt]
  · simp
  · rw [if_neg (Nat.ne_of_gt hgt), List.getElem?_eq_none (Nat.le_of_lt hgt),
      List.getElem?_eq_none (by simp; omega)]

end Tables

/-- The graph as tables. -/
def tables (g : ModuleGraph) : Tables := ⟨g.module?, g.find?, g.edges?, g.size⟩

@[simp] theorem modules_tables (g : ModuleGraph) : g.tables.modules = g.module? := rfl

@[simp] theorem numbers_tables (g : ModuleGraph) : g.tables.numbers = g.find? := rfl

@[simp] theorem edges_tables (g : ModuleGraph) : g.tables.edges = g.edges? := rfl

@[simp] theorem next_tables (g : ModuleGraph) : g.tables.next = g.size := rfl

/-- A path is looked up by its components. -/
theorem find?_congr (g : ModuleGraph) (h : path.Same path') : g.find? path = g.find? path' := by
  have hsame : ∀ n : ModuleNode, n.module.path.Same path ↔ n.module.path.Same path' := fun n =>
    ⟨fun hn => hn.trans h, fun hn => hn.trans (Eq.symm h)⟩
  simp only [find?, hsame]

theorem tables_addModule (g : ModuleGraph) (m : ScriptModule) :
    g.tables.addModule m = ((g.addModule m).1, (g.addModule m).2.tables) := by
  rw [Tables.addModule, numbers_tables]
  cases hfind : g.find? m.path with
  | some id => rw [addModule_of_some hfind]
  | none =>
      rw [addModule_of_none hfind]
      refine congrArg (Prod.mk g.size) (Tables.ext (Tables.put_length _ g.nodes ⟨m, []⟩) ?numbers
        (Tables.put_length _ g.nodes ⟨m, []⟩) (by simp [size]))
      funext path
      rw [numbers_tables, find?_eq ⟨_⟩, modules, List.map_append, List.findIdx?_append, ← modules,
        ← find?_eq]
      dsimp only
      split
      · next hsame =>
          have hlast : m.path.Same path := Eq.symm hsame
          rw [(find?_congr g hsame).trans hfind]
          simp [hlast, length_modules]
      · next hother =>
          have hlast : ¬m.path.Same path := fun h => hother (Eq.symm h)
          simp [hlast]

theorem tables_addDependency (g : ModuleGraph) (source target : Nat) :
    g.tables.addDependency source target = (g.addDependency source target).tables := by
  have hsame : (g.addDependency source target).tables =
      { g.tables with edges := (g.addDependency source target).edges? } := by
    refine Tables.ext (funext fun id => ?_) (funext fun path => ?_) rfl
      (size_addDependency g source target)
    · rw [modules_tables, module?_eq, modules_addDependency, ← module?_eq, modules_tables]
    · rw [numbers_tables, find?_eq, modules_addDependency, ← find?_eq, numbers_tables]
  have hown := edges?_addDependency g source target source
  have hother : ∀ id, source ≠ id → g.edges? id = (g.addDependency source target).edges? id :=
    fun id hid => by simp [edges?_addDependency, hid]
  rw [hsame, Tables.addDependency, edges_tables]
  cases hsource : g.edges? source with
  | none =>
      refine Tables.ext rfl rfl (Tables.eq_of_row source ?_ hother) rfl
      simp [hown, hsource]
  | some targets =>
      by_cases hmem : target ∈ targets
      · simp only [List.contains_iff_mem.mpr hmem, if_true]
        refine Tables.ext rfl rfl (Tables.eq_of_row source ?_ hother) rfl
        simp [hown, hsource, hmem]
      · simp only [List.contains_iff_mem, hmem, if_false]
        refine Tables.ext rfl rfl (Tables.eq_of_row source ?_ fun id hid => ?_) rfl
        · simp [hown, hsource, hmem, Tables.put]
        · simp [← hother id hid, Tables.put, Ne.symm hid]

theorem tables_ofCalls (calls : List GraphCall) :
    Tables.ofCalls calls = (ofCalls calls).tables := by
  induction calls using List.reverseRecOn with
  | nil => rfl
  | append_singleton calls c ih =>
      have htables : Tables.ofCalls (calls ++ [c]) = (Tables.ofCalls calls).call c :=
        List.foldl_append
      have hgraph : ofCalls (calls ++ [c]) = (ofCalls calls).call c := List.foldl_append
      rw [htables, hgraph, ih]
      cases c with
      | addModule m => exact congrArg Prod.snd (tables_addModule _ m)
      | addDependency source target => exact tables_addDependency _ source target

/-! The history of a graph -/

/-- The modules that calls hand over, in order. -/
def handed (calls : List GraphCall) : List ScriptModule := calls.filterMap GraphCall.module?

/-- The places that modules are added at, in the order of the first additions. -/
def placesAdded (calls : List GraphCall) : List (List Path.Component) :=
  ((handed calls).map fun m => m.path.components).eraseDups

/-- The targets that one call adds to the module with that number, behind the calls `before`. There
are none as long as there is no such module. -/
def addedTargets (id : Nat) (before : List GraphCall) : GraphCall → List Nat
  | .addModule _ => []
  | .addDependency source target =>
      if source = id ∧ id < (placesAdded before).length then [target] else []

/-- The targets that calls add to the module with that number, repeated ones included. -/
def targetsFrom (id : Nat) (before : List GraphCall) : List GraphCall → List Nat
  | [] => []
  | c :: calls => addedTargets id before c ++ targetsFrom id (before ++ [c]) calls

theorem handed_concat (calls : List GraphCall) (c : GraphCall) :
    handed (calls ++ [c]) = handed calls ++ c.module?.toList := by
  rw [handed, List.filterMap_append]
  cases c <;> rfl

theorem mem_handed : m ∈ handed calls ↔ GraphCall.addModule m ∈ calls := by
  rw [handed, List.mem_filterMap]
  constructor
  · rintro ⟨c, hc, hm⟩
    cases c with
    | addModule other =>
        obtain rfl := Option.some.inj hm
        exact hc
    | addDependency source target => cases hm
  · exact fun hc => ⟨_, hc, rfl⟩

theorem placesAdded_addDependency (calls : List GraphCall) (source target : Nat) :
    placesAdded (calls ++ [.addDependency source target]) = placesAdded calls := by
  rw [placesAdded, handed_concat]
  simp [GraphCall.module?, placesAdded]

theorem placesAdded_addModule (calls : List GraphCall) (m : ScriptModule) :
    placesAdded (calls ++ [.addModule m]) =
      if m.path.components ∈ placesAdded calls then placesAdded calls
      else placesAdded calls ++ [m.path.components] := by
  rw [placesAdded, handed_concat]
  simp only [GraphCall.module?, Option.toList_some, List.map_append, List.map_cons, List.map_nil,
    eraseDups_concat, placesAdded, List.mem_eraseDups]

theorem nodup_placesAdded (calls : List GraphCall) : (placesAdded calls).Nodup :=
  nodup_eraseDups _

theorem targetsFrom_append (id : Nat) (before calls calls' : List GraphCall) :
    targetsFrom id before (calls ++ calls') =
      targetsFrom id before calls ++ targetsFrom id (before ++ calls) calls' := by
  induction calls generalizing before with
  | nil => simp [targetsFrom]
  | cons c calls ih => simp [targetsFrom, ih, List.append_assoc]

theorem targetsFrom_concat (id : Nat) (calls : List GraphCall) (c : GraphCall) :
    targetsFrom id [] (calls ++ [c]) = targetsFrom id [] calls ++ addedTargets id calls c := by
  rw [targetsFrom_append]
  simp [targetsFrom]

theorem length_placesAdded_le (calls : List GraphCall) (c : GraphCall) :
    (placesAdded calls).length ≤ (placesAdded (calls ++ [c])).length := by
  cases c with
  | addModule m =>
      rw [placesAdded_addModule]
      split
      · exact Nat.le_refl _
      · simp
  | addDependency source target =>
      have hsame := placesAdded_addDependency calls source target
      exact Nat.le_of_eq (congrArg List.length hsame.symm)

/-- Nothing is added to a module that is not there yet. -/
theorem targetsFrom_eq_nil (h : (placesAdded calls).length ≤ id) :
    targetsFrom id [] calls = [] := by
  induction calls using List.reverseRecOn with
  | nil => rfl
  | append_singleton calls c ih =>
      have hle := Nat.le_trans (length_placesAdded_le calls c) h
      rw [targetsFrom_concat, ih hle, List.nil_append]
      cases c with
      | addModule m => rfl
      | addDependency source target => exact if_neg fun hid => Nat.not_lt.mpr hle hid.2

/-- The graph is what the calls have made: its modules are the first ones at their places, and each
has the targets added to it, where they first came up. -/
structure Records (g : ModuleGraph) (calls : List GraphCall) : Prop where
  places : g.modules.map (fun m => m.path.components) = placesAdded calls
  first : ∀ m ∈ g.modules, (handed calls).find? (fun other => other.path.Same m.path) = some m
  edges : ∀ id, g.edges? id =
    if id < (placesAdded calls).length then some (targetsFrom id [] calls).eraseDups else none

namespace Records

theorem size_eq (h : Records g calls) : g.size = (placesAdded calls).length := by
  rw [← h.places, List.length_map, length_modules]

theorem find?_eq (h : Records g calls) (path : Path) :
    g.find? path = (placesAdded calls).findIdx? fun place => decide (place = path.components) := by
  rw [ModuleGraph.find?_eq, ← h.places, List.findIdx?_map]
  rfl

theorem find?_eq_some_iff (h : Records g calls) :
    g.find? path = some id ↔ (placesAdded calls)[id]? = some path.components := by
  rw [h.find?_eq, List.findIdx?_eq_some_iff_getElem, List.getElem?_eq_some_iff]
  refine exists_congr fun hlt => ?_
  rw [decide_eq_true_iff, and_iff_left_of_imp]
  intro hplace other hother hsame
  have hne := List.pairwise_iff_getElem.mp (nodup_placesAdded calls) other id
    (Nat.lt_trans hother hlt) hlt hother
  exact hne ((of_decide_eq_true hsame).trans hplace.symm)

theorem find?_eq_none_iff (h : Records g calls) :
    g.find? path = none ↔ path.components ∉ placesAdded calls := by
  rw [h.find?_eq, List.findIdx?_eq_none_iff]
  simp only [decide_eq_false_iff_not, ← List.forall_mem_ne']

theorem addModule (h : Records g calls) (m : ScriptModule) :
    Records (g.addModule m).2 (calls ++ [.addModule m]) := by
  have hadded : ∀ id, targetsFrom id [] (calls ++ [.addModule m]) = targetsFrom id [] calls :=
    fun id => by rw [targetsFrom_concat, addedTargets, List.append_nil]
  have hhanded : handed (calls ++ [.addModule m]) = handed calls ++ [m] := handed_concat calls _
  have hkept : ∀ n ∈ g.modules,
      (handed (calls ++ [.addModule m])).find? (fun other => other.path.Same n.path) = some n := by
    intro n hn
    rw [hhanded, List.find?_append, h.first n hn, Option.some_or]
  cases hfind : g.find? m.path with
  | some id =>
      have hmem : m.path.components ∈ placesAdded calls :=
        List.mem_of_getElem? (h.find?_eq_some_iff.mp hfind)
      have hplaces : placesAdded (calls ++ [.addModule m]) = placesAdded calls := by
        rw [placesAdded_addModule, if_pos hmem]
      rw [addModule_of_some hfind]
      exact ⟨h.places.trans hplaces.symm, hkept, fun id => by rw [hplaces, hadded, h.edges]⟩
  | none =>
      have hnew : m.path.components ∉ placesAdded calls := h.find?_eq_none_iff.mp hfind
      have hplaces : placesAdded (calls ++ [.addModule m]) =
          placesAdded calls ++ [m.path.components] := by
        rw [placesAdded_addModule, if_neg hnew]
      rw [addModule_of_none hfind]
      refine ⟨?places, ?first, ?edges⟩
      case places =>
        rw [hplaces, ← h.places]
        simp [modules]
      case first =>
        intro n hn
        rw [modules, List.map_append, ← modules] at hn
        rcases List.mem_append.mp hn with hn | hn
        · exact hkept n hn
        · obtain rfl := List.mem_singleton.mp hn
          have hnone : (handed calls).find? (fun other => other.path.Same n.path) = none := by
            rw [List.find?_eq_none]
            intro other hother hsame
            refine hnew (List.mem_eraseDups.mpr (List.mem_map.mpr ⟨other, hother, ?_⟩))
            exact of_decide_eq_true hsame
          rw [hhanded, List.find?_append, hnone, Option.none_or]
          simp [Path.Same]
      case edges =>
        intro id
        have hedges := congrFun (Tables.put_length (·.dependencies) g.nodes ⟨m, []⟩) id
        rw [hadded, hplaces, List.length_append, List.length_singleton]
        refine hedges.symm.trans ?_
        have hold : (g.nodes[id]?).map (·.dependencies) = _ := h.edges id
        have hsize : g.nodes.length = _ := h.size_eq
        rw [Tables.put, hold, hsize]
        rcases Nat.lt_trichotomy id (placesAdded calls).length with hlt | rfl | hgt
        · rw [if_neg (Nat.ne_of_lt hlt), if_pos hlt, if_pos (Nat.lt_succ_of_lt hlt)]
        · rw [if_pos rfl, if_pos (Nat.lt_succ_self _), targetsFrom_eq_nil (Nat.le_refl _)]
          rfl
        · rw [if_neg (Nat.ne_of_gt hgt), if_neg (by omega), if_neg (by omega)]

theorem addDependency (h : Records g calls) (source target : Nat) :
    Records (g.addDependency source target) (calls ++ [.addDependency source target]) := by
  have hplaces := placesAdded_addDependency calls source target
  refine ⟨?places, ?first, ?edges⟩
  case places => rw [modules_addDependency, hplaces, h.places]
  case first =>
    intro m hm
    rw [handed_concat, GraphCall.module?, Option.toList_none, List.append_nil]
    exact h.first m (by rwa [modules_addDependency] at hm)
  case edges =>
    intro id
    rw [hplaces, edges?_addDependency, h.edges, targetsFrom_concat, addedTargets]
    by_cases hlt : id < (placesAdded calls).length
    · by_cases hid : source = id
      · simp only [hid, hlt, if_true, Option.map_some, true_and, eraseDups_concat,
          List.mem_eraseDups, and_self]
        by_cases hmem : target ∈ targetsFrom id [] calls <;> simp [hmem]
      · simp [hid, hlt]
    · simp [hlt]

end Records

theorem records_ofCalls (calls : List GraphCall) : Records (ofCalls calls) calls := by
  induction calls using List.reverseRecOn with
  | nil => exact ⟨rfl, nofun, fun _ => rfl⟩
  | append_singleton calls c ih =>
      have hgraph : ofCalls (calls ++ [c]) = (ofCalls calls).call c := List.foldl_append
      rw [hgraph]
      cases c with
      | addModule m => exact ih.addModule m
      | addDependency source target => exact ih.addDependency source target

/-- What holds of a graph that has grown by calls, told by what can be looked up in it. -/
structure IsIndexed (calls : List GraphCall) (g : ModuleGraph) : Prop where
  /-- The numbers run from zero, one for each place. -/
  ids : g.ids = List.range (placesAdded calls).length
  /-- They go by the first additions, whatever the spelling of a path. -/
  numbered : ∀ path id,
    g.find? path = some id ↔ (placesAdded calls)[id]? = some path.components
  /-- Looking up a path and looking up a number undo each other. -/
  inverse : ∀ path id, g.find? path = some id ↔ ∃ m, g.module? id = some m ∧ m.path.Same path
  /-- The paths that have a number are those that were added. -/
  added : ∀ path, (g.find? path).isSome = true ↔
    ∃ m, GraphCall.addModule m ∈ calls ∧ m.path.Same path
  /-- The numbers that have a module, and no others, are in use. -/
  known : ∀ id, (g.module? id).isSome = true ↔ id ∈ g.ids
  /-- A module is as it was first added. -/
  first : ∀ id m, g.module? id = some m →
    (handed calls).find? (fun other => other.path.Same m.path) = some m
  /-- A known path gives its number and changes nothing. -/
  again : ∀ m id, g.find? m.path = some id → g.addModule m = (id, g)
  /-- A new path gets the next number. -/
  new : ∀ m, g.find? m.path = none → (g.addModule m).1 = g.size
  /-- Just the numbers in use have edges: the targets added to them, where they first came up. -/
  edges : ∀ id, g.edges? id =
    if id ∈ g.ids then some (targetsFrom id [] calls).eraseDups else none
  distinct : ∀ id targets, g.edges? id = some targets → targets.Nodup
  /-- An edge from a number that is not in use changes nothing. -/
  unknown : ∀ source target, source ∉ g.ids → g.addDependency source target = g

/-- After any calls a graph is indexed by the first additions of its paths, and its modules, numbers
and edges are those that the same calls leave in four separate tables. -/
theorem isIndexed_ofCalls (calls : List GraphCall) :
    IsIndexed calls (ofCalls calls) ∧ (ofCalls calls).tables = Tables.ofCalls calls := by
  have h := records_ofCalls calls
  refine ⟨?_, (tables_ofCalls calls).symm⟩
  generalize ofCalls calls = g at h ⊢
  have hids : ∀ id, id ∈ g.ids ↔ id < (placesAdded calls).length := fun id => by
    rw [ids, List.mem_range, h.size_eq]
  refine ⟨by rw [ids, h.size_eq], fun path id => h.find?_eq_some_iff, ?inverse, ?added, ?known,
    ?first, ?again, ?new, ?edges, ?distinct, ?unknown⟩
  case inverse =>
    intro path id
    rw [h.find?_eq_some_iff, ← h.places, List.getElem?_map, Option.map_eq_some_iff, module?_eq]
    rfl
  case added =>
    intro path
    rw [← Option.ne_none_iff_isSome, Ne, h.find?_eq_none_iff, not_not, placesAdded,
      List.mem_eraseDups, List.mem_map]
    simp only [mem_handed]
    rfl
  case known =>
    intro id
    rw [hids, module?_eq, ← Option.ne_none_iff_isSome, Ne, List.getElem?_eq_none_iff, Nat.not_le,
      length_modules, h.size_eq]
  case first =>
    intro id m hm
    rw [module?_eq] at hm
    exact h.first m (List.mem_of_getElem? hm)
  case again => exact fun m id hfind => addModule_of_some hfind
  case new => exact fun m hfind => congrArg Prod.fst (addModule_of_none hfind)
  case edges =>
    intro id
    simp only [hids, h.edges]
  case distinct =>
    intro id targets htargets
    rw [h.edges] at htargets
    split at htargets
    · cases htargets
      exact nodup_eraseDups _
    · cases htargets
  case unknown =>
    intro source target hsource
    rw [hids, Nat.not_lt, ← h.size_eq] at hsource
    exact addDependency_of_le hsource target

end ModuleGraph
end StyleBundler
