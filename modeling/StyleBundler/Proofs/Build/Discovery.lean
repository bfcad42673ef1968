import Mathlib.Data.List.Forall2
import Mathlib.Data.List.Nodup
import Mathlib.Logic.Relation
import StyleBundler.Build.Discovery
import StyleBundler.Proofs.FileTree
import StyleBundler.Proofs.Graph

/-!
What discovery finds. A visit only adds modules behind those that are there, and all that
it adds is finished when it returns, cycles included: a module that is still being visited
keeps its place in front of what its dependencies add (`InProgress`). So the graph is the
closure of the entrypoints under following dependencies (`IsClosure`), and the bound on
the depth is never met, since the modules are files of the tree, each only once.
-/

namespace StyleBundler

namespace ModuleGraph

/-- The paths of the modules, by their numbers. -/
def places (g : ModuleGraph) : List Path := g.nodes.map (·.module.path)

theorem length_places (g : ModuleGraph) : g.places.length = g.size := List.length_map _

theorem map_modify_of_eq {α β : Type} {f : α → α} {k : α → β} (h : ∀ a, k (f a) = k a)
    (xs : List α) (i : Nat) : (xs.modify i f).map k = xs.map k := by
  apply List.ext_getElem?
  intro j
  rw [List.getElem?_map, List.getElem?_map, List.getElem?_modify]
  cases xs[j]? with
  | none => rfl
  | some a =>
      simp only [Functor.map, Option.map_some]
      split
      · rw [h]
      · rfl

@[simp]
theorem places_addDependency (g : ModuleGraph) (source target : Nat) :
    (g.addDependency source target).places = g.places :=
  map_modify_of_eq (fun n => by split <;> rfl) _ _

theorem places_modify (g : ModuleGraph) (id : Nat) {f : ScriptModule → ScriptModule}
    (hf : ∀ m, (f m).path = m.path) : (g.modify id f).places = g.places :=
  map_modify_of_eq (fun n => hf n.module) _ _

theorem places_eq_of_forall₂ {g g' : ModuleGraph}
    (h : List.Forall₂ (fun n n' : ModuleNode => n'.module.path = n.module.path) g.nodes g'.nodes) :
    g'.places = g.places := by
  rw [places, places, ← List.forall₂_eq_eq_eq, List.forall₂_map_left_iff,
    List.forall₂_map_right_iff]
  exact h.flip

theorem exists_node_of_place {g : ModuleGraph} {id : Nat} {place : Path}
    (h : g.places[id]? = some place) : ∃ n, g.nodes[id]? = some n ∧ n.module.path = place := by
  rwa [places, List.getElem?_map, Option.map_eq_some_iff] at h

end ModuleGraph

namespace Build

open FileTree

/-- The place of the module that a specifier leads to. -/
def destination? (t : FileTree) (p : Pipeline) (importer : Path) (specifier : String) :
    Option Path :=
  match dependencyPath? t p importer specifier with
  | .ok (some path) => (t.canonical path).toOption
  | _ => none

/-- The file at `importer` has a dependency that leads to `place`. -/
def LeadsTo (t : FileTree) (p : Pipeline) (importer place : Path) : Prop :=
  ∃ source, t.readText importer = .ok source ∧
    ∃ s ∈ Dependency.dependencies source, destination? t p importer s = some place

/-- The least set of places that holds those of the entrypoints and, with a file, what its
dependencies lead to. -/
inductive Reached (t : FileTree) (p : Pipeline) (entrypoints : List (String × Path)) :
    Path → Prop
  | entrypoint {name : String} {path place : Path} (h : (name, path) ∈ entrypoints)
      (hplace : t.canonical path = .ok place) : Reached t p entrypoints place
  | dependency {importer place : Path} (h : Reached t p entrypoints importer)
      (hleads : LeadsTo t p importer place) : Reached t p entrypoints place

/-- A module whose dependencies `done` have been followed, in a graph with these places.
No question to the hooks failed, and no dependency led to a path that does not exist. -/
structure Followed (t : FileTree) (p : Pipeline) (places : List Path) (done : List String)
    (n : ModuleNode) : Prop where
  text : t.readText n.module.path = .ok n.module.source
  untransformed : n.module.transformed = none
  settled : ∀ s ∈ done, dependencyPath? t p n.module.path s = .ok none ∨
    ∃ path place, dependencyPath? t p n.module.path s = .ok (some path) ∧
      t.canonical path = .ok place
  internalImports : n.module.internalImports =
    done.filter fun s => (destination? t p n.module.path s).isSome
  dependencies : n.dependencies.map (places[·]?) =
    (done.filterMap (destination? t p n.module.path)).eraseDups.map some

/-- A module with all its dependencies. -/
def IsComplete (t : FileTree) (p : Pipeline) (places : List Path) (n : ModuleNode) : Prop :=
  Followed t p places (Dependency.dependencies n.module.source) n

/-- The graph is what the entrypoints lead to: its places are those reached, none of them
names the file of another, and every module has all its dependencies. -/
structure IsClosure (t : FileTree) (p : Pipeline) (entrypoints : List (String × Path))
    (g : ModuleGraph) : Prop where
  present : ∀ e ∈ entrypoints, ∃ place ∈ g.places, t.canonical e.2 = .ok place
  places : ∀ place, place ∈ g.places ↔ Reached t p entrypoints place
  once : (g.places.map t.trace).Nodup
  complete : ∀ n ∈ g.nodes, IsComplete t p g.places n

/-- The places of a graph under construction: different files of the tree. -/
structure AreFiles (t : FileTree) (places : List Path) : Prop where
  nodup : places.Nodup
  files : ∀ place ∈ places, ∃ l, IsProper l ∧ l ∈ t.entries.map Prod.fst ∧ place = pathOf l

variable {t : FileTree} {p : Pipeline} {g g' : ModuleGraph} {path place : Path}
  {places : List Path} {done : List String} {n : ModuleNode} {s : String}

theorem AreFiles.length_le (h : AreFiles t places) : places.length ≤ t.entries.length := by
  have hsub : places ⊆ (t.entries.map Prod.fst).map pathOf := by
    intro place hplace
    obtain ⟨l, -, hentry, rfl⟩ := h.files place hplace
    exact List.mem_map_of_mem hentry
  simpa using h.nodup.length_le_of_subset hsub

theorem AreFiles.empty (t : FileTree) : AreFiles t ModuleGraph.empty.places :=
  ⟨List.nodup_nil, fun _ h => absurd h List.not_mem_nil⟩

theorem getElem?_of_find? (ht : IsProper t.workingDirectory) (hg : AreFiles t g.places)
    (hplace : t.canonical path = .ok place) {id : Nat} (h : g.find? place = some id) :
    g.places[id]? = some place := by
  obtain ⟨l, hl, -, rfl⟩ := exists_place_of_canonical ht hplace
  obtain ⟨hid, hsame, -⟩ := List.findIdx?_eq_some_iff_getElem.mp h
  have hmem : g.nodes[id].module.path ∈ g.places :=
    List.mem_map_of_mem (List.getElem_mem hid)
  obtain ⟨l', hl', -, hpath⟩ := hg.files _ hmem
  rw [hpath, decide_eq_true_eq, same_pathOf_iff hl' hl] at hsame
  simp [ModuleGraph.places, List.getElem?_eq_getElem hid, hpath, hsame]

theorem notMem_of_find? (h : g.find? place = none) : place ∉ g.places := by
  intro hmem
  obtain ⟨n, hn, rfl⟩ := List.mem_map.mp hmem
  have := List.findIdx?_eq_none_iff.mp h n hn
  simp [Path.Same] at this

theorem AreFiles.concat (ht : IsProper t.workingDirectory) (hg : AreFiles t places)
    (hplace : t.canonical path = .ok place) (hnew : place ∉ places) {source : String}
    (hsource : t.readText place = .ok source) : AreFiles t (places ++ [place]) where
  nodup := by
    rw [List.nodup_append]
    exact ⟨hg.nodup, List.nodup_singleton _, fun a ha b hb hab =>
      hnew (by rwa [← List.mem_singleton.mp hb, ← hab])⟩
  files := by
    intro q hq
    rcases List.mem_append.mp hq with hq | hq
    · exact hg.files q hq
    · rw [List.mem_singleton.mp hq]
      obtain ⟨l, hl, -, rfl⟩ := exists_place_of_canonical ht hplace
      obtain ⟨l', content, htrace, hfile, -⟩ := exists_file_of_readText hsource
      rw [eq_of_trace_pathOf hl htrace] at hfile
      exact ⟨l, hl, mem_entries_of_find? hfile, rfl⟩

theorem Followed.append (h : Followed t p places done n) (more : List Path) :
    Followed t p (places ++ more) done n := by
  refine ⟨h.text, h.untransformed, h.settled, h.internalImports, ?_⟩
  rw [← h.dependencies]
  refine List.map_congr_left fun id hid => ?_
  have hknown : places[id]? ∈ n.dependencies.map (places[·]?) := List.mem_map_of_mem hid
  rw [h.dependencies] at hknown
  obtain ⟨place, -, hplace⟩ := List.mem_map.mp hknown
  obtain ⟨hlt, -⟩ := List.getElem?_eq_some_iff.mp hplace.symm
  exact List.getElem?_append_left hlt

theorem destination?_of_left {importer : Path}
    (hs : dependencyPath? t p importer s = .ok none) : destination? t p importer s = none := by
  rw [destination?, hs]

theorem destination?_of_led {importer : Path}
    (hs : dependencyPath? t p importer s = .ok (some path))
    (hplace : t.canonical path = .ok place) : destination? t p importer s = some place := by
  simp [destination?, hs, hplace, Except.toOption]

/-- A dependency that leads out of the build changes nothing. -/
theorem Followed.left (h : Followed t p places done n)
    (hs : dependencyPath? t p n.module.path s = .ok none) :
    Followed t p places (done ++ [s]) n where
  text := h.text
  untransformed := h.untransformed
  settled := by
    intro r hr
    rcases List.mem_append.mp hr with hr | hr
    · exact h.settled r hr
    · rw [List.mem_singleton.mp hr]
      exact .inl hs
  internalImports := by simp [h.internalImports, List.filter_append, destination?_of_left hs]
  dependencies := by simp [h.dependencies, List.filterMap_append, destination?_of_left hs]

/-- A module with one more dependency, which leads to the module `target`. -/
def linked (n : ModuleNode) (s : String) (target : Nat) : ModuleNode :=
  ⟨{ n.module with internalImports := n.module.internalImports ++ [s] },
    if n.dependencies.contains target then n.dependencies else n.dependencies ++ [target]⟩

theorem Followed.led (h : Followed t p places done n) (hnodup : places.Nodup)
    (hs : dependencyPath? t p n.module.path s = .ok (some path))
    (hplace : t.canonical path = .ok place) {target : Nat}
    (htarget : places[target]? = some place) :
    Followed t p places (done ++ [s]) (linked n s target) where
  text := h.text
  untransformed := h.untransformed
  settled := by
    intro r hr
    rcases List.mem_append.mp hr with hr | hr
    · exact h.settled r hr
    · rw [List.mem_singleton.mp hr]
      exact .inr ⟨path, place, hs, hplace⟩
  internalImports := by
    simp [linked, h.internalImports, List.filter_append, destination?_of_led hs hplace]
  dependencies := by
    -- A place has one number, so `target` is new exactly when its place is.
    have hmem : target ∈ n.dependencies ↔
        place ∈ done.filterMap (destination? t p n.module.path) := by
      have hplaces : some place ∈ n.dependencies.map (places[·]?) ↔
          place ∈ done.filterMap (destination? t p n.module.path) := by
        rw [h.dependencies]
        simp [List.mem_eraseDups]
      rw [← hplaces, List.mem_map]
      constructor
      · exact fun hid => ⟨target, hid, htarget⟩
      · rintro ⟨id, hid, hsame⟩
        obtain ⟨hlt, -⟩ := List.getElem?_eq_some_iff.mp htarget
        rwa [← (List.getElem?_inj hlt hnodup).mp (htarget.trans hsame.symm)] at hid
    have hlist : (done ++ [s]).filterMap (destination? t p n.module.path) =
        done.filterMap (destination? t p n.module.path) ++ [place] := by
      simp [List.filterMap_append, destination?_of_led hs hplace]
    rw [show (linked n s target).module.path = n.module.path from rfl, hlist, eraseDups_concat]
    simp only [linked, List.contains_iff_mem, hmem]
    split
    · exact h.dependencies
    · simp [h.dependencies, htarget]

/-- What a visit of the file at `place` does to a graph: it adds finished modules that the
file leads to, behind those that are there. -/
def Extends (t : FileTree) (p : Pipeline) (place : Path) (g g' : ModuleGraph) : Prop :=
  ∃ added, g'.nodes = g.nodes ++ added ∧ AreFiles t g'.places ∧
    ∀ n ∈ added, IsComplete t p g'.places n ∧
      Relation.ReflTransGen (LeadsTo t p) place n.module.path

/-- What is asked of a way to visit files: a visit that ends well gives the number of the
file's module. -/
def VisitsFiles (t : FileTree) (p : Pipeline)
    (v : ModuleGraph → Path → Except Failure (Nat × ModuleGraph)) : Prop :=
  ∀ {g path id g'}, AreFiles t g.places → v g path = .ok (id, g') →
    ∃ place, t.canonical path = .ok place ∧ g'.places[id]? = some place ∧
      Extends t p place g g'

/-- A graph in which the module of the file at `place` is being visited: it stands behind
the modules of `g` and in front of those that its dependencies `done` have added. -/
def InProgress (t : FileTree) (p : Pipeline) (g : ModuleGraph) (place : Path)
    (source : String) (done : List String) (g' : ModuleGraph) : Prop :=
  ∃ n added, g'.nodes = g.nodes ++ n :: added ∧ n.module.path = place ∧
    n.module.source = source ∧ AreFiles t g'.places ∧ Followed t p g'.places done n ∧
    ∀ m ∈ added, IsComplete t p g'.places m ∧
      Relation.ReflTransGen (LeadsTo t p) place m.module.path

variable {v : ModuleGraph → Path → Except Failure (Nat × ModuleGraph)} {source : String}

/-- A dependency of the module `id` that leads to the module `target`. -/
def link (g : ModuleGraph) (id target : Nat) (s : String) : ModuleGraph :=
  (g.addDependency id target).modify id fun m =>
    { m with internalImports := m.internalImports ++ [s] }

theorem places_link (g : ModuleGraph) (id target : Nat) (s : String) :
    (link g id target s).places = g.places := by
  refine (ModuleGraph.places_modify _ _ ?_).trans (ModuleGraph.places_addDependency g id target)
  exact fun _ => rfl

theorem follow_of_left (hs : dependencyPath? t p place s = .ok none) (id : Nat) :
    follow t p v place id g s = .ok g := by
  simp [follow, hs, bind, Except.bind]

theorem follow_of_led (hs : dependencyPath? t p place s = .ok (some path)) (id : Nat) :
    follow t p v place id g s = (v g path).map fun r => link r.2 id r.1 s := by
  simp only [follow, hs, bind, Except.bind]
  cases v g path <;> rfl

theorem follow_cases {id : Nat} (h : follow t p v place id g s = .ok g') :
    (dependencyPath? t p place s = .ok none ∧ g' = g) ∨
      ∃ path target g₁, dependencyPath? t p place s = .ok (some path) ∧
        v g path = .ok (target, g₁) ∧ g' = link g₁ id target s := by
  cases hs : dependencyPath? t p place s with
  | error e => simp [follow, hs, bind, Except.bind] at h
  | ok found =>
      cases found with
      | none =>
          rw [follow_of_left hs] at h
          cases h
          exact .inl ⟨rfl, rfl⟩
      | some path =>
          rw [follow_of_led hs] at h
          cases hv : v g path with
          | error e => simp [hv, Except.map] at h
          | ok r =>
              rw [hv] at h
              cases h
              exact .inr ⟨path, r.1, r.2, rfl, hv, rfl⟩

theorem nodes_linked {front added : List ModuleNode} (target : Nat)
    (h : g.nodes = front ++ n :: added) :
    (link g front.length target s).nodes = front ++ linked n s target :: added := by
  rw [link, ModuleGraph.modify, ModuleGraph.addDependency, h]
  simp only [List.modify_eq_take_drop, List.take_left, List.drop_left, List.modifyHead_cons,
    linked]
  split <;> rfl

theorem InProgress.follow {g₀ : ModuleGraph} (hv : VisitsFiles t p v)
    (hsource : t.readText place = .ok source) (hs : s ∈ Dependency.dependencies source)
    (h : InProgress t p g₀ place source done g)
    (hf : Build.follow t p v place g₀.size g s = .ok g') :
    InProgress t p g₀ place source (done ++ [s]) g' := by
  obtain ⟨n, added, hnodes, rfl, hn, hfiles, hfollowed, hadded⟩ := h
  obtain ⟨hleft, rfl⟩ | ⟨path, target, g₁, hled, hvisit, rfl⟩ := follow_cases hf
  · exact ⟨n, added, hnodes, rfl, hn, hfiles, hfollowed.left hleft, hadded⟩
  · obtain ⟨place, hplace, htarget, more, hmore, hfiles₁, hcomplete⟩ := hv hfiles hvisit
    have hplaces : g₁.places = g.places ++ more.map (·.module.path) := by
      rw [ModuleGraph.places, hmore, List.map_append, ModuleGraph.places]
    have hleads : LeadsTo t p n.module.path place :=
      ⟨source, hsource, s, hs, destination?_of_led hled hplace⟩
    have hnodes₁ : g₁.nodes = g₀.nodes ++ n :: (added ++ more) := by
      rw [hmore, hnodes]
      simp
    refine ⟨linked n s target, added ++ more, nodes_linked target hnodes₁, rfl, hn, ?_⟩
    rw [places_link]
    refine ⟨hfiles₁, ?_, fun m hm => ?_⟩
    · exact (hplaces ▸ hfollowed.append _).led hfiles₁.nodup hled hplace htarget
    · rcases List.mem_append.mp hm with hm | hm
      · exact ⟨hplaces ▸ (hadded m hm).1.append _, (hadded m hm).2⟩
      · exact ⟨(hcomplete m hm).1, .head hleads (hcomplete m hm).2⟩

theorem InProgress.foldlM {g₀ : ModuleGraph} (hv : VisitsFiles t p v)
    (hsource : t.readText place = .ok source) {rest : List String}
    (hrest : ∀ s ∈ rest, s ∈ Dependency.dependencies source)
    (h : InProgress t p g₀ place source done g)
    (hf : rest.foldlM (Build.follow t p v place g₀.size) g = .ok g') :
    InProgress t p g₀ place source (done ++ rest) g' := by
  induction rest generalizing done g with
  | nil =>
      cases hf
      simpa using h
  | cons s rest ih =>
      rw [List.foldlM_cons] at hf
      cases hstep : Build.follow t p v place g₀.size g s with
      | error e => simp [hstep, bind, Except.bind] at hf
      | ok g₁ =>
          rw [hstep] at hf
          simpa using ih (fun r hr => hrest r (List.mem_cons_of_mem _ hr))
            (h.follow hv hsource (hrest s (by simp)) hstep) hf

/-- A graph with the module of a file that was read, its dependencies still to follow. -/
def opened (g : ModuleGraph) (place : Path) (source : String) : ModuleGraph :=
  ⟨g.nodes ++ [⟨.ofSource place source, []⟩]⟩

theorem places_opened (g : ModuleGraph) (place : Path) (source : String) :
    (opened g place source).places = g.places ++ [place] := by
  simp [opened, ModuleGraph.places, ScriptModule.ofSource]

theorem visit_of_found {id : Nat} (hplace : t.canonical path = .ok place)
    (hfind : g.find? place = some id) (depth : Nat) :
    visit t p (depth + 1) g path = .ok (id, g) := by
  simp [visit, hplace, hfind, Except.mapError, bind, Except.bind]

theorem visit_of_read (hplace : t.canonical path = .ok place) (hfind : g.find? place = none)
    (hsource : t.readText place = .ok source) (depth : Nat) :
    visit t p (depth + 1) g path =
      ((Dependency.dependencies source).foldlM (follow t p (visit t p depth) place g.size)
        (opened g place source)).map (g.size, ·) := by
  have hadd : g.addModule (.ofSource place source) = (g.size, opened g place source) := by
    simp [ModuleGraph.addModule, ScriptModule.ofSource, hfind, opened]
  simp only [visit, hplace, hfind, hsource, hadd, Except.mapError, bind, Except.bind]
  split <;> next hfold => simp [hfold, Except.map]

/-- What a visit does: it finds the module, or it reads the file, adds a module for it and
follows its dependencies. -/
theorem visit_cases {depth id : Nat} (h : visit t p (depth + 1) g path = .ok (id, g')) :
    ∃ place, t.canonical path = .ok place ∧
      ((g.find? place = some id ∧ g' = g) ∨
        ∃ source, g.find? place = none ∧ t.readText place = .ok source ∧ id = g.size ∧
          (Dependency.dependencies source).foldlM (follow t p (visit t p depth) place g.size)
            (opened g place source) = .ok g') := by
  cases hplace : t.canonical path with
  | error e => simp [visit, hplace, Except.mapError, bind, Except.bind] at h
  | ok place =>
      refine ⟨place, rfl, ?_⟩
      cases hfind : g.find? place with
      | some known =>
          rw [visit_of_found hplace hfind] at h
          cases h
          exact .inl ⟨rfl, rfl⟩
      | none =>
          cases hsource : t.readText place with
          | error e =>
              simp [visit, hplace, hfind, hsource, Except.mapError, bind, Except.bind] at h
          | ok source =>
              rw [visit_of_read hplace hfind hsource] at h
              cases hfold : (Dependency.dependencies source).foldlM
                  (follow t p (visit t p depth) place g.size) (opened g place source) with
              | error e => simp [hfold, Except.map] at h
              | ok g₁ =>
                  rw [hfold] at h
                  cases h
                  exact .inr ⟨source, rfl, rfl, rfl, hfold⟩

theorem visit_visitsFiles (ht : IsProper t.workingDirectory) (depth : Nat) :
    VisitsFiles t p (visit t p depth) := by
  induction depth with
  | zero =>
      intro g path id g' _ h
      cases h
  | succ depth ih =>
      intro g path id g' hg h
      obtain ⟨place, hplace, ⟨hfind, rfl⟩ | ⟨source, hfind, hsource, rfl, hfold⟩⟩ :=
        visit_cases h
      · exact ⟨place, hplace, getElem?_of_find? ht hg hplace hfind, [], by simp, hg, by simp⟩
      · have hstart : InProgress t p g place source [] (opened g place source) := by
          refine ⟨⟨.ofSource place source, []⟩, [], rfl, rfl, rfl, ?_, ?_, by simp⟩
          · rw [places_opened]
            exact hg.concat ht hplace (notMem_of_find? hfind) hsource
          · exact ⟨hsource, rfl, by simp, by simp [ScriptModule.ofSource], by simp⟩
        obtain ⟨n, added, hnodes, rfl, rfl, hfiles, hfollowed, hadded⟩ :=
          hstart.foldlM ih hsource (fun _ hs => hs) hfold
        refine ⟨n.module.path, hplace, ?_, n :: added, hnodes, hfiles, fun m hm => ?_⟩
        · simp [ModuleGraph.places, hnodes, ModuleGraph.size]
        · rcases List.mem_cons.mp hm with rfl | hm
          · exact ⟨hfollowed, .refl⟩
          · exact hadded m hm

/-- Visits the entrypoints in turn. -/
def visitEach (t : FileTree) (p : Pipeline) (depth : Nat) (g : ModuleGraph)
    (entrypoints : List (String × Path)) : Except Failure ModuleGraph :=
  entrypoints.foldlM (fun g (_, path) => (visit t p depth g path).map (·.2)) g

/-- Discovery with a bound of its own on the depth. -/
def discoverWithin (t : FileTree) (p : Pipeline) (depth : Nat)
    (entrypoints : List (String × Path)) : Except Failure ModuleGraph :=
  visitEach t p depth ModuleGraph.empty entrypoints

theorem Reached.mono {entrypoints more : List (String × Path)} (hsub : entrypoints ⊆ more)
    (h : Reached t p entrypoints place) : Reached t p more place := by
  induction h with
  | entrypoint he hplace => exact .entrypoint (hsub he) hplace
  | dependency _ hleads ih => exact .dependency ih hleads

theorem Reached.trans {entrypoints : List (String × Path)} {first : Path}
    (h : Reached t p entrypoints first)
    (hleads : Relation.ReflTransGen (LeadsTo t p) first place) :
    Reached t p entrypoints place := by
  induction hleads with
  | refl => exact h
  | tail _ hlast ih => exact .dependency ih hlast

/-- What visiting the entrypoints in turn adds to a graph. -/
theorem exists_added_of_visitEach (ht : IsProper t.workingDirectory) {depth : Nat}
    {entrypoints : List (String × Path)} (hg : AreFiles t g.places)
    (h : visitEach t p depth g entrypoints = .ok g') :
    ∃ added, g'.nodes = g.nodes ++ added ∧ AreFiles t g'.places ∧
      (∀ n ∈ added, IsComplete t p g'.places n ∧ Reached t p entrypoints n.module.path) ∧
      ∀ e ∈ entrypoints, ∃ place ∈ g'.places, t.canonical e.2 = .ok place := by
  induction entrypoints generalizing g with
  | nil =>
      cases h
      exact ⟨[], by simp, hg, by simp, by simp⟩
  | cons e entrypoints ih =>
      rw [visitEach, List.foldlM_cons] at h
      cases hvisit : visit t p depth g e.2 with
      | error e => simp [hvisit, Except.map, bind, Except.bind] at h
      | ok r =>
          simp only [hvisit, Except.map, bind, Except.bind] at h
          obtain ⟨place, hplace, hid, front, hfront, hfiles, hadded⟩ :=
            visit_visitsFiles ht depth hg hvisit
          obtain ⟨back, hback, hfiles', hadded', hpresent⟩ := ih hfiles h
          have hplaces : g'.places = r.2.places ++ back.map (·.module.path) := by
            rw [ModuleGraph.places, hback, List.map_append, ModuleGraph.places]
          have hentry : Reached t p (e :: entrypoints) place :=
            .entrypoint List.mem_cons_self hplace
          refine ⟨front ++ back, by rw [hback, hfront, List.append_assoc], hfiles', ?_, ?_⟩
          · intro n hn
            rcases List.mem_append.mp hn with hn | hn
            · exact ⟨hplaces ▸ (hadded n hn).1.append _, hentry.trans (hadded n hn).2⟩
            · exact ⟨(hadded' n hn).1, (hadded' n hn).2.mono (List.subset_cons_self _ _)⟩
          · intro e' he'
            rcases List.mem_cons.mp he' with rfl | he'
            · refine ⟨place, ?_, hplace⟩
              rw [hplaces]
              exact List.mem_append_left _ (List.mem_of_getElem? hid)
            · exact hpresent e' he'

theorem IsComplete.mem_of_leadsTo {importer : Path} (hn : IsComplete t p places n)
    (hpath : n.module.path = importer) (h : LeadsTo t p importer place) : place ∈ places := by
  obtain ⟨source, hsource, s, hs, hplace⟩ := h
  rw [← hpath, hn.text, Except.ok.injEq] at hsource
  have hmem : some place ∈ n.dependencies.map (places[·]?) := by
    rw [hn.dependencies]
    refine List.mem_map_of_mem (List.mem_eraseDups.mpr (List.mem_filterMap.mpr ⟨s, ?_, ?_⟩))
    · rwa [hsource]
    · rwa [hpath]
  obtain ⟨id, -, hid⟩ := List.mem_map.mp hmem
  exact List.mem_of_getElem? hid

theorem isClosure_of_discover (ht : IsProper t.workingDirectory)
    {entrypoints : List (String × Path)} (h : discover t p entrypoints = .ok g) :
    IsClosure t p entrypoints g := by
  obtain ⟨added, hnodes, hfiles, hadded, hpresent⟩ :=
    exists_added_of_visitEach ht (AreFiles.empty t) h
  rw [ModuleGraph.empty, List.nil_append] at hnodes
  rw [← hnodes] at hadded
  refine ⟨hpresent, fun place => ⟨fun hplace => ?_, fun hplace => ?_⟩, ?_,
    fun n hn => (hadded n hn).1⟩
  · obtain ⟨n, hn, rfl⟩ := List.mem_map.mp hplace
    exact (hadded n hn).2
  · induction hplace with
    | entrypoint he hplace =>
        obtain ⟨place', hmem, hplace'⟩ := hpresent _ he
        rw [hplace, Except.ok.injEq] at hplace'
        rwa [hplace']
    | dependency _ hleads ih =>
        obtain ⟨n, hn, hpath⟩ := List.mem_map.mp ih
        exact (hadded n hn).1.mem_of_leadsTo hpath hleads
  · -- The path of a module leads back to the place it was made of.
    have htrace : ∀ place ∈ g.places, ∃ l, t.trace place = .ok l ∧ place = pathOf l := by
      intro place hplace
      obtain ⟨l, hl, -, hpath⟩ := hfiles.files place hplace
      obtain ⟨n, hn, rfl⟩ := List.mem_map.mp hplace
      obtain ⟨l', -, hl', -⟩ := exists_file_of_readText (hadded n hn).1.text
      rw [hpath] at hl'
      refine ⟨l, ?_, hpath⟩
      rw [hpath, hl', eq_of_trace_pathOf hl hl']
    refine List.Nodup.map_on (fun a ha b hb hab => ?_) hfiles.nodup
    obtain ⟨l, hl, rfl⟩ := htrace a ha
    obtain ⟨l', hl', rfl⟩ := htrace b hb
    rw [hl, hl', Except.ok.injEq] at hab
    rw [hab]

theorem follow_congr {v' : ModuleGraph → Path → Except Failure (Nat × ModuleGraph)}
    (h : ∀ path, v g path = v' g path) (id : Nat) :
    follow t p v place id g s = follow t p v' place id g s := by
  unfold follow
  cases dependencyPath? t p place s with
  | error e => rfl
  | ok found =>
      cases found with
      | none => rfl
      | some path => simp only [bind, Except.bind, h]

/-- Two folds over steps that agree as long as an invariant holds. -/
theorem foldlM_congr {α β ε : Type} {f f' : β → α → Except ε β} {P : β → Prop}
    (hagree : ∀ b a, P b → f b a = f' b a)
    (hstep : ∀ b a b', P b → f b a = .ok b' → P b') {b : β} (hb : P b) (xs : List α) :
    xs.foldlM f b = xs.foldlM f' b := by
  induction xs generalizing b with
  | nil => rfl
  | cons x xs ih =>
      rw [List.foldlM_cons, List.foldlM_cons, ← hagree b x hb]
      cases hx : f b x with
      | error e => rfl
      | ok b' => exact ih (hstep b x b' hb hx)

/-- The files that are no modules yet number at most `depth`. -/
def WithinReach (t : FileTree) (depth : Nat) (g : ModuleGraph) : Prop :=
  AreFiles t g.places ∧ t.entries.length + 1 ≤ g.size + depth

theorem WithinReach.visit (ht : IsProper t.workingDirectory) {depth depth' id : Nat}
    (hg : WithinReach t depth g) (h : Build.visit t p depth' g path = .ok (id, g')) :
    WithinReach t depth g' := by
  obtain ⟨place, -, -, added, hnodes, hfiles, -⟩ := visit_visitsFiles ht depth' hg.1 h
  have hsize : g'.size = g.size + added.length := by simp [ModuleGraph.size, hnodes]
  have hbound := hg.2
  exact ⟨hfiles, by omega⟩

theorem WithinReach.follow (ht : IsProper t.workingDirectory) {depth depth' id : Nat}
    (hg : WithinReach t depth g)
    (h : Build.follow t p (Build.visit t p depth') place id g s = .ok g') :
    WithinReach t depth g' := by
  obtain ⟨-, rfl⟩ | ⟨path, target, g₁, -, hvisit, rfl⟩ := follow_cases h
  · exact hg
  · obtain ⟨hfiles, hbound⟩ := hg.visit ht hvisit
    refine ⟨by rwa [places_link], ?_⟩
    rwa [← ModuleGraph.length_places, places_link, ModuleGraph.length_places]

/-- A greater depth changes nothing once every file can be visited. -/
theorem visit_succ (ht : IsProper t.workingDirectory) {depth : Nat}
    (hg : WithinReach t depth g) (path : Path) :
    visit t p (depth + 1) g path = visit t p depth g path := by
  induction depth generalizing g path with
  | zero =>
      have hlength := hg.1.length_le
      have hbound := hg.2
      rw [ModuleGraph.length_places] at hlength
      omega
  | succ depth ih =>
      cases hplace : t.canonical path with
      | error e => simp [visit, hplace, Except.mapError, bind, Except.bind]
      | ok place =>
          cases hfind : g.find? place with
          | some id => rw [visit_of_found hplace hfind, visit_of_found hplace hfind]
          | none =>
              cases hsource : t.readText place with
              | error e =>
                  simp [visit, hplace, hfind, hsource, Except.mapError, bind, Except.bind]
              | ok source =>
                  have hstart : WithinReach t depth (opened g place source) := by
                    have hfiles := hg.1.concat ht hplace (notMem_of_find? hfind) hsource
                    have hbound := hg.2
                    refine ⟨by rwa [places_opened], ?_⟩
                    rw [← ModuleGraph.length_places, places_opened, List.length_append,
                      ModuleGraph.length_places, List.length_singleton]
                    omega
                  rw [visit_of_read hplace hfind hsource, visit_of_read hplace hfind hsource,
                    foldlM_congr (fun g' s hg' => follow_congr (fun q => ih hg' q) g.size)
                      (fun g' s g'' hg' hstep => hg'.follow ht hstep) hstart]

theorem discoverWithin_eq_discover (ht : IsProper t.workingDirectory) {depth : Nat}
    (hdepth : visitDepth t ≤ depth) (entrypoints : List (String × Path)) :
    discoverWithin t p depth entrypoints = discover t p entrypoints := by
  obtain ⟨more, rfl⟩ := Nat.exists_eq_add_of_le hdepth
  induction more with
  | zero => rfl
  | succ more ih =>
      rw [← ih (Nat.le_add_right _ _)]
      refine foldlM_congr (P := WithinReach t (visitDepth t + more)) ?_ ?_ ?_ entrypoints
      · intro g e hg
        exact congrArg (Except.map _) (visit_succ ht hg e.2)
      · intro g e g' hg h
        have h : Except.map (·.2) (visit t p (visitDepth t + more + 1) g e.2) = .ok g' := h
        cases hvisit : visit t p (visitDepth t + more + 1) g e.2 with
        | error e => simp [hvisit, Except.map] at h
        | ok r =>
            rw [hvisit] at h
            cases h
            exact hg.visit ht hvisit
      · exact ⟨AreFiles.empty t, by rw [visitDepth]; omega⟩

/-- Discovery ends by itself: no greater depth gives another result. When it succeeds, the
graph is the closure of the entrypoints. -/
theorem discover_isClosure (t : FileTree) (p : Pipeline) (entrypoints : List (String × Path))
    (ht : IsProper t.workingDirectory) :
    (∀ depth, visitDepth t ≤ depth →
      discoverWithin t p depth entrypoints = discover t p entrypoints) ∧
    ∀ g, discover t p entrypoints = .ok g → IsClosure t p entrypoints g :=
  ⟨fun _ hdepth => discoverWithin_eq_discover ht hdepth entrypoints,
    fun _ h => isClosure_of_discover ht h⟩

/-- Two files that lead to each other, one of them also to itself and to a package, and
the other to it in another spelling. -/
theorem discover_cycle :
    let main := "import './b.js';\nimport 'x';\nimport './a.js';\n"
    let other := "import './/a';\n"
    let t : FileTree := ⟨[(["a.js"], .file main.toUTF8), (["b.js"], .file other.toUTF8)], []⟩
    let g : ModuleGraph := ⟨[⟨⟨⟨"/a.js"⟩, main, ["./b.js", "./a.js"], none⟩, [1, 0]⟩,
      ⟨⟨⟨"/b.js"⟩, other, [".//a"], none⟩, [0]⟩]⟩
    discover t (.ofPlugins []) [("main", ⟨"/a.js"⟩)] = .ok g ∧
      IsClosure t (.ofPlugins []) [("main", ⟨"/a.js"⟩)] g := by
  intro main other t g
  have hmain : Dependency.dependencies main = ["./b.js", "x", "./a.js"] := by decide +kernel
  have hother : Dependency.dependencies other = [".//a"] := by decide +kernel
  have hcanonical : ∀ path ∈ [(⟨"/a.js"⟩ : Path), ⟨"/b.js"⟩], t.canonical path = .ok path := by
    simp only [canonical, trace]
    decide +kernel
  have hreadMain : t.readText ⟨"/a.js"⟩ = .ok main := by
    simp only [readText, locate, checkPath, trace]
    decide +kernel
  have hreadOther : t.readText ⟨"/b.js"⟩ = .ok other := by
    simp only [readText, locate, checkPath, trace]
    decide +kernel
  have hscript : Resolve.script? t "./b.js" ⟨"/a.js"⟩ = some ⟨"/b.js"⟩ ∧
      Resolve.script? t "x" ⟨"/a.js"⟩ = none ∧
      Resolve.script? t "./a.js" ⟨"/a.js"⟩ = some ⟨"/a.js"⟩ ∧
      Resolve.script? t ".//a" ⟨"/b.js"⟩ = some ⟨"/a.js"⟩ := by
    unfold Resolve.script? Resolve.relative? Resolve.candidates
    delta isFile isDirectory
    simp only [locate, checkPath, trace]
    decide +kernel
  have hdependency (spec : String) (importer : Path) :
      dependencyPath? t (.ofPlugins []) importer spec = .ok (Resolve.script? t spec importer) := rfl
  have hinner : visit t (.ofPlugins []) 2 (opened .empty ⟨"/a.js"⟩ main) ⟨"/b.js"⟩ =
      .ok (1, link (opened (opened .empty ⟨"/a.js"⟩ main) ⟨"/b.js"⟩ other) 1 0 ".//a") := by
    rw [visit_of_read (hcanonical _ (by simp)) (by decide +kernel) hreadOther, hother,
      List.foldlM_cons, follow_of_led (by rw [hdependency, hscript.2.2.2]),
      visit_of_found (hcanonical _ (by simp)) (show _ = some 0 by decide +kernel)]
    rfl
  have hrun : discover t (.ofPlugins []) [("main", ⟨"/a.js"⟩)] = .ok g := by
    have hvisit : visit t (.ofPlugins []) 3 .empty ⟨"/a.js"⟩ = .ok (0, g) := by
      rw [visit_of_read (hcanonical _ (by simp)) (by decide +kernel) hreadMain, hmain]
      simp only [List.foldlM_cons, follow_of_led (hdependency _ _ |>.trans (congrArg _ hscript.1)),
        hinner, bind, Except.bind, Except.map,
        follow_of_left (hdependency _ _ |>.trans (congrArg _ hscript.2.1)),
        follow_of_led (hdependency _ _ |>.trans (congrArg _ hscript.2.2.1))]
      rw [visit_of_found (hcanonical _ (by simp)) (show _ = some 0 by decide +kernel)]
      rfl
    rw [discover, List.foldlM_cons]
    change (visit t _ 3 _ _).map _ >>= _ = _
    rw [hvisit]
    rfl
  exact ⟨hrun, (discover_isClosure t (.ofPlugins []) _ (by decide)).2 g hrun⟩

end Build
end StyleBundler
