import Mathlib.Logic.Function.Basic
import Mathlib.Logic.Relation
import StyleBundler.Proofs.Hook.Rewriting

/-!
Modules that are transformed side by side. Each of them has one load per site, and the loads of
all modules take their steps in any order: every access to the store or to the bundle is a step of
its own, so that between publishing an asset, filing it under its name and filling its cell
other loads may do anything. A cell that is being worked on keeps other loads of its path waiting,
and a load may be dropped wherever it waits or works on its own.

Whatever has happened, the store and the bundle agree with what was published (`Sound.agree`), and
each load that succeeded has the asset of its own site (`Holds`). So neither the modules nor the
bundle show in which order the loads took their steps (`transform_confluent`).
-/

namespace StyleBundler.Hook.Concurrent

open Import AssetStore

/-- A module to transform. -/
structure Source where
  path : Path
  code : String

/-- The load of one site of one module. -/
structure Job where
  module : Nat
  site : Nat
deriving DecidableEq

/-- How far a load has come, with the path that its site leads to. -/
inductive Phase where
  | requested
  | waiting (path : Path)
  | reading (path : Path)
  | transforming (path : Path) (raw : String)
  | publishing (path : Path) (content : String)
  /-- Published, and not yet filed under its name. -/
  | filing (a : Asset)
  /-- Filed under its name, and not yet in its cell. -/
  | settling (a : Asset)
  | finished (result : Except StyleError Asset)
  | dropped

namespace Phase

/-- The path whose cell a load works on. -/
def work? : Phase → Option Path
  | .reading path | .transforming path _ | .publishing path _ => some path
  | .filing a | .settling a => some a.path
  | _ => none

/-- A load can be dropped before it starts and wherever it waits for something. -/
def CanDrop : Phase → Prop
  | .requested | .waiting _ | .reading _ | .transforming _ _ => True
  | _ => False

def asset? : Phase → Option Asset
  | .finished (.ok a) => some a
  | _ => none

/-- What a load does on its own. -/
def advance? (t : FileTree) (o : StyleOptions) : Phase → Option Phase
  | .reading path =>
      match t.readText path with
      | .error cause => some (.finished (.error (.read path cause)))
      | .ok raw => some (.transforming path raw)
  | .transforming path raw =>
      match o.transform with
      | none => some (.publishing path raw)
      | some f =>
          match f raw with
          | .ok content => some (.publishing path content)
          | .error cause => some (.finished (.error (.transform path cause)))
  | _ => none

end Phase

structure State where
  store : AssetStore
  bundle : OutputBundle
  /-- The assets that were published, in order. -/
  published : List Asset
  phase : Job → Phase

namespace State

def start (o : StyleOptions) : State := ⟨.empty o.bundle.isSome, [], [], fun _ => .requested⟩

def move (s : State) (x : Job) (phase : Phase) : State :=
  { s with phase := Function.update s.phase x phase }

/-- No load works on the cell of a path. -/
def Free (s : State) (path : Path) : Prop :=
  ∀ x q, (s.phase x).work? = some q → ¬q.Same path

def publish (s : State) (a : Asset) : State :=
  { s with
    bundle := Listing.insert a.name ⟨.asset, a.content⟩ s.bundle
    published := s.published ++ [a] }

end State

/-- The site of a load, with the module that it is in. -/
def siteOf? (o : StyleOptions) (ms : List Source) (x : Job) : Option (Path × Site) := do
  let m ← ms[x.module]?
  let site ← (sitesOf o m.path m.code)[x.site]?
  some (m.path, site)

/-- What the load of a site can do next. -/
inductive Move (t : FileTree) (o : StyleOptions) (importer : Path) (site : Site) (x : Job)
    (s : State) : State → Prop
  | refuse {e : StyleError} (hphase : s.phase x = .requested)
      (h : Resolve.stylesheet t site.specifier importer = .error e) :
      Move t o importer site x s (s.move x (.finished (.error e)))
  | reserve {path : Path} (hphase : s.phase x = .requested)
      (h : Resolve.stylesheet t site.specifier importer = .ok path) :
      Move t o importer site x s
        ({ s with store := s.store.reserve path }.move x (.waiting path))
  | hit {path : Path} {a : Asset} (hphase : s.phase x = .waiting path)
      (ha : s.store.loaded? path = some a) :
      Move t o importer site x s (s.move x (.finished (.ok a)))
  | acquire {path : Path} (hphase : s.phase x = .waiting path)
      (hempty : s.store.loaded? path = none) (hfree : s.Free path) :
      Move t o importer site x s (s.move x (.reading path))
  | work {phase : Phase} (h : (s.phase x).advance? t o = some phase) :
      Move t o importer site x s (s.move x phase)
  | publish {path : Path} {content : String} {a : Asset}
      (hphase : s.phase x = .publishing path content)
      (ha : a = .ofContent s.store.staging path content) :
      Move t o importer site x s ((s.publish a).move x (.filing a))
  | file {a : Asset} (hphase : s.phase x = .filing a) :
      Move t o importer site x s ({ s with store := s.store.file a }.move x (.settling a))
  | settle {a : Asset} (hphase : s.phase x = .settling a) :
      Move t o importer site x s
        ({ s with store := s.store.settle a }.move x (.finished (.ok a)))
  | drop (h : (s.phase x).CanDrop) : Move t o importer site x s (s.move x .dropped)

def Step (t : FileTree) (o : StyleOptions) (ms : List Source) (s s' : State) : Prop :=
  ∃ x importer site, siteOf? o ms x = some (importer, site) ∧ Move t o importer site x s s'

/-- The states that the loads of some modules lead to. -/
def Reachable (t : FileTree) (o : StyleOptions) (ms : List Source) : State → Prop :=
  Relation.ReflTransGen (Step t o ms) (.start o)

variable {t : FileTree} {o : StyleOptions} {ms : List Source} {s s' : State} {x : Job}
  {importer path : Path} {site : Site} {a : Asset}

theorem phase_move_self (s : State) (x : Job) (phase : Phase) :
    (s.move x phase).phase x = phase :=
  Function.update_self ..

theorem phase_move_of_ne {y : Job} (h : y ≠ x) (s : State) (phase : Phase) :
    (s.move x phase).phase y = s.phase y :=
  Function.update_of_ne h ..

/-- What a load has made sure of. -/
def Holds (t : FileTree) (o : StyleOptions) (s : State) (importer : Path) (site : Site) :
    Phase → Prop
  | .waiting path | .reading path =>
      Resolve.stylesheet t site.specifier importer = .ok path ∧ s.store.HasCell path
  | .transforming path raw =>
      (Resolve.stylesheet t site.specifier importer = .ok path ∧ s.store.HasCell path) ∧
        t.readText path = .ok raw
  | .publishing path content =>
      (Resolve.stylesheet t site.specifier importer = .ok path ∧ s.store.HasCell path) ∧
        fetch t o.transform path = .ok content
  | .filing a =>
      (assetFor t o importer site = .ok a ∧ s.store.HasCell a.path) ∧ a ∈ s.published
  | .settling a =>
      (assetFor t o importer site = .ok a ∧ s.store.HasCell a.path) ∧ a ∈ s.published ∧
        ∃ b, s.store.index.lookup a.name = some b
  | .finished (.ok a) =>
      assetFor t o importer site = .ok a ∧ a ∈ s.published ∧ s.store.loaded? a.path = some a
  | .requested | .finished (.error _) | .dropped => True

/-- What is there stays there. -/
structure Grows (s s' : State) : Prop where
  cell : ∀ path, s.store.HasCell path → s'.store.HasCell path
  loaded : ∀ path a, s.store.loaded? path = some a → s'.store.loaded? path = some a
  index : ∀ name, (∃ b, s.store.index.lookup name = some b) →
    ∃ b, s'.store.index.lookup name = some b
  published : ∀ a ∈ s.published, a ∈ s'.published

theorem Grows.of_eq (hstore : s'.store = s.store) (hpublished : s'.published = s.published) :
    Grows s s' where
  cell _ h := hstore ▸ h
  loaded _ _ h := hstore ▸ h
  index _ h := hstore ▸ h
  published _ h := hpublished ▸ h

theorem Holds.mono (hgrows : Grows s s') {phase : Phase}
    (h : Holds t o s importer site phase) : Holds t o s' importer site phase := by
  cases phase with
  | requested | dropped => trivial
  | waiting path | reading path => exact ⟨h.1, hgrows.cell _ h.2⟩
  | transforming path raw | publishing path content =>
      exact ⟨⟨h.1.1, hgrows.cell _ h.1.2⟩, h.2⟩
  | filing a => exact ⟨⟨h.1.1, hgrows.cell _ h.1.2⟩, hgrows.published _ h.2⟩
  | settling a =>
      exact ⟨⟨h.1.1, hgrows.cell _ h.1.2⟩, hgrows.published _ h.2.1, hgrows.index _ h.2.2⟩
  | finished result =>
      cases result with
      | error e => trivial
      | ok a => exact ⟨h.1, hgrows.published _ h.2.1, hgrows.loaded _ _ h.2.2⟩

/-- What every step keeps. -/
structure Sound (t : FileTree) (o : StyleOptions) (ms : List Source) (s : State) : Prop where
  agree : Agree t o s.published s.store s.bundle
  holds : ∀ x importer site, siteOf? o ms x = some (importer, site) →
    Holds t o s importer site (s.phase x)
  imported : ∀ a ∈ s.published, ∃ x importer site,
    siteOf? o ms x = some (importer, site) ∧ assetFor t o importer site = .ok a

theorem Sound.start (t : FileTree) (o : StyleOptions) (ms : List Source) :
    Sound t o ms (.start o) where
  agree := .empty t o
  holds _ _ _ _ := trivial
  imported _ h := absurd h List.not_mem_nil

/-- One load moves; the others keep what they have made sure of. -/
theorem Sound.move (h : Sound t o ms s) (hx : siteOf? o ms x = some (importer, site))
    (hgrows : Grows s s') (hagree : Agree t o s'.published s'.store s'.bundle)
    (hphase : s'.phase = s.phase)
    (himported : ∀ a ∈ s'.published, a ∈ s.published ∨ assetFor t o importer site = .ok a)
    {phase : Phase} (hnew : Holds t o s' importer site phase) :
    Sound t o ms (s'.move x phase) where
  agree := hagree
  holds y importer' site' hy := by
    by_cases hyx : y = x
    · subst hyx
      rw [hx, Option.some.injEq, Prod.mk.injEq] at hy
      rw [phase_move_self, ← hy.1, ← hy.2]
      exact hnew.mono (.of_eq rfl rfl)
    · rw [phase_move_of_ne hyx, hphase]
      exact (h.holds y importer' site' hy).mono ⟨hgrows.cell, hgrows.loaded, hgrows.index,
        hgrows.published⟩
  imported a ha := by
    obtain hold | hnew := himported a ha
    · exact h.imported a hold
    · exact ⟨x, importer, site, hx, hnew⟩

/-- A load that changes nothing but its own phase. -/
theorem Sound.move_self (h : Sound t o ms s) (hx : siteOf? o ms x = some (importer, site))
    {phase : Phase} (hnew : Holds t o s importer site phase) : Sound t o ms (s.move x phase) :=
  h.move hx (.of_eq rfl rfl) h.agree rfl (fun _ ha => .inl ha) hnew

theorem Holds.advance {phase phase' : Phase} (h : Holds t o s importer site phase)
    (hadvance : phase.advance? t o = some phase') : Holds t o s importer site phase' := by
  cases phase with
  | reading path =>
      simp only [Phase.advance?] at hadvance
      split at hadvance
      · cases hadvance
        trivial
      · next raw hraw =>
          cases hadvance
          exact ⟨h, hraw⟩
  | transforming path raw =>
      obtain ⟨hpath, hraw⟩ := h
      simp only [Phase.advance?] at hadvance
      split at hadvance
      · next hnone =>
          cases hadvance
          exact ⟨hpath, by simp [fetch, hraw, hnone]⟩
      · next f hf =>
          split at hadvance
          · next content hcontent =>
              cases hadvance
              exact ⟨hpath, by simp [fetch, hraw, hf, hcontent]⟩
          · cases hadvance
            trivial
  | _ => cases hadvance

theorem Sound.reserve (h : Sound t o ms s) (hx : siteOf? o ms x = some (importer, site))
    (hpath : Resolve.stylesheet t site.specifier importer = .ok path) :
    Sound t o ms ({ s with store := s.store.reserve path }.move x (.waiting path)) := by
  have hgrows : Grows s { s with store := s.store.reserve path } :=
    { cell := fun q hq => hq.reserve path
      loaded := fun q b hb => by rw [loaded?_reserve, hb]
      index := fun name hname => by rwa [index_reserve]
      published := fun _ ha => ha }
  exact h.move hx hgrows (h.agree.reserve path) rfl (fun _ ha => .inl ha)
    ⟨hpath, hasCell_reserve s.store path⟩

theorem Sound.hit (h : Sound t o ms s) (hx : siteOf? o ms x = some (importer, site))
    (hphase : s.phase x = .waiting path) (ha : s.store.loaded? path = some a) :
    Sound t o ms (s.move x (.finished (.ok a))) := by
  have hwaiting := h.holds x importer site hx
  rw [hphase] at hwaiting
  obtain ⟨hmem, hsame, -⟩ := h.agree.loaded path a ha
  refine h.move_self hx ⟨?_, hmem, ?_⟩
  · refine (h.agree.assetFor_of_assetOf? ?_).2
    rw [Stylesheets.assetOf?, hwaiting.1]
    exact ha
  · rw [loaded?_congr s.store hsame, ha]

theorem Sound.publish (h : Sound t o ms s) (hx : siteOf? o ms x = some (importer, site))
    {content : String} (hphase : s.phase x = .publishing path content)
    (ha : a = .ofContent s.store.staging path content) :
    Sound t o ms ((s.publish a).move x (.filing a)) := by
  have hpublishing := h.holds x importer site hx
  rw [hphase] at hpublishing
  obtain ⟨⟨hpath, hcell⟩, hfetch⟩ := hpublishing
  rw [h.agree.staging] at ha
  subst ha
  have hpublished : Published t o (.ofContent o.bundle.isSome path content) :=
    .ofContent hpath hfetch
  have hasset : assetFor t o importer site = .ok (.ofContent o.bundle.isSome path content) :=
    assetFor_eq_ok_iff.mpr ⟨hpublished, hpath⟩
  have hgrows : Grows s (s.publish (.ofContent o.bundle.isSome path content)) :=
    ⟨fun _ hq => hq, fun _ _ hb => hb, fun _ hname => hname,
      fun _ hb => List.mem_append_left _ hb⟩
  refine h.move hx hgrows (h.agree.emit hpublished) rfl ?_ ⟨⟨hasset, hcell⟩, ?_⟩
  · intro b hb
    obtain hb | hb := List.mem_append.mp hb
    · exact .inl hb
    · exact .inr (List.mem_singleton.mp hb ▸ hasset)
  · exact List.mem_append_right _ (List.mem_singleton_self _)

theorem Sound.file (h : Sound t o ms s) (hx : siteOf? o ms x = some (importer, site))
    (hphase : s.phase x = .filing a) :
    Sound t o ms ({ s with store := s.store.file a }.move x (.settling a)) := by
  have hfiling := h.holds x importer site hx
  rw [hphase] at hfiling
  obtain ⟨hasset, hmem⟩ := hfiling
  have hlookup : ∃ b, (s.store.file a).index.lookup a.name = some b :=
    ⟨a, by rw [lookup_file, if_pos rfl]⟩
  have hgrows : Grows s { s with store := s.store.file a } := by
    refine ⟨fun _ hq => hq, fun _ _ hb => hb, fun name hname => ?_, fun _ hb => hb⟩
    rw [lookup_file]
    split
    · exact ⟨a, rfl⟩
    · exact hname
  exact h.move hx hgrows (h.agree.file hmem) rfl (fun _ hb => .inl hb) ⟨hasset, hmem, hlookup⟩

theorem Sound.settle (h : Sound t o ms s) (hx : siteOf? o ms x = some (importer, site))
    (hphase : s.phase x = .settling a) :
    Sound t o ms ({ s with store := s.store.settle a }.move x (.finished (.ok a))) := by
  have hsettling := h.holds x importer site hx
  rw [hphase] at hsettling
  obtain ⟨⟨hasset, hcell⟩, hmem, hindex⟩ := hsettling
  have hloaded : (s.store.settle a).loaded? a.path = some a := by
    rw [loaded?_settle hcell, if_pos (.refl _)]
  have hgrows : Grows s { s with store := s.store.settle a } :=
    ⟨fun q hq => hq.settle a, fun q b hb => h.agree.loaded?_settle_of_loaded hmem hcell hb,
      fun _ hname => hname, fun _ hb => hb⟩
  exact h.move hx hgrows (h.agree.settle hmem hcell hindex) rfl (fun _ hb => .inl hb)
    ⟨hasset, hmem, hloaded⟩

theorem Sound.step (h : Sound t o ms s) (hstep : Step t o ms s s') : Sound t o ms s' := by
  obtain ⟨x, importer, site, hx, hmove⟩ := hstep
  cases hmove with
  | refuse hphase hresolve => exact h.move_self hx trivial
  | reserve hphase hresolve => exact h.reserve hx hresolve
  | hit hphase ha => exact h.hit hx hphase ha
  | acquire hphase hempty hfree =>
      have hwaiting := h.holds x importer site hx
      rw [hphase] at hwaiting
      exact h.move_self hx hwaiting
  | work hadvance => exact h.move_self hx ((h.holds x importer site hx).advance hadvance)
  | publish hphase ha => exact h.publish hx hphase ha
  | file hphase => exact h.file hx hphase
  | settle hphase => exact h.settle hx hphase
  | drop hdrop => exact h.move_self hx trivial

theorem Reachable.sound (h : Reachable t o ms s) : Sound t o ms s := by
  induction h with
  | refl => exact .start t o ms
  | tail _ hstep ih => exact ih.step hstep

/-- Every load has succeeded. -/
def State.Succeeded (o : StyleOptions) (ms : List Source) (s : State) : Prop :=
  ∀ x, (siteOf? o ms x).isSome = true → ((s.phase x).asset?).isSome = true

/-- What a module becomes, when all its loads have succeeded. -/
def State.result? (o : StyleOptions) (s : State) (i : Nat) (m : Source) :
    Option (Except StyleError Change) :=
  ((sitesOf o m.path m.code).zipIdx.mapM fun y => (s.phase ⟨i, y.2⟩).asset?).map
    (rewritten o m.path m.code)

theorem Phase.asset?_eq_some {phase : Phase} (h : phase.asset? = some a) :
    phase = .finished (.ok a) := by
  unfold Phase.asset? at h
  split at h
  · cases h
    rfl
  · cases h

theorem Sound.exists_finished (h : Sound t o ms s) (hs : s.Succeeded o ms)
    (hx : siteOf? o ms x = some (importer, site)) :
    ∃ a, (s.phase x).asset? = some a ∧ assetFor t o importer site = .ok a ∧ a ∈ s.published ∧
      s.store.loaded? a.path = some a := by
  have hsome : (siteOf? o ms x).isSome = true := by rw [hx]; rfl
  obtain ⟨a, ha⟩ := Option.isSome_iff_exists.mp (hs x hsome)
  have hfinished := h.holds x importer site hx
  rw [Phase.asset?_eq_some ha] at hfinished
  exact ⟨a, ha, hfinished⟩

theorem exists_mapM_zipIdx (found : List Site) (i k : Nat)
    (h : ∀ j site, found[j]? = some site →
      ∃ a, (s.phase ⟨i, k + j⟩).asset? = some a ∧ assetFor t o importer site = .ok a) :
    ∃ assets, (found.zipIdx k).mapM (fun y => (s.phase ⟨i, y.2⟩).asset?) = some assets ∧
      List.Forall₂ (fun site a => assetFor t o importer site = .ok a) found assets := by
  induction found generalizing k with
  | nil => exact ⟨[], rfl, .nil⟩
  | cons site found ih =>
      obtain ⟨a, hphase, hasset⟩ := h 0 site rfl
      obtain ⟨assets, hassets, hall⟩ := ih (k + 1) fun j site' hj => by
        have hnext := h (j + 1) site' hj
        rwa [← Nat.add_assoc, Nat.add_right_comm] at hnext
      refine ⟨a :: assets, ?_, .cons hasset hall⟩
      rw [Nat.add_zero] at hphase
      rw [List.zipIdx_cons, List.mapM_cons, hphase, hassets]
      rfl

/-- A module becomes what its code and path alone give. -/
theorem Sound.result?_eq (h : Sound t o ms s) (hs : s.Succeeded o ms) {i : Nat} {m : Source}
    (hm : ms[i]? = some m) : s.result? o i m = some (rewriting t o m.path m.code) := by
  have hfound : ∀ j site, (sitesOf o m.path m.code)[j]? = some site →
      ∃ a, (s.phase ⟨i, 0 + j⟩).asset? = some a ∧ assetFor t o m.path site = .ok a := by
    intro j site hj
    have hx : siteOf? o ms ⟨i, j⟩ = some (m.path, site) := by simp [siteOf?, hm, hj]
    obtain ⟨a, ha, hasset, -⟩ := h.exists_finished hs hx
    exact ⟨a, by rw [Nat.zero_add, ha], hasset⟩
  obtain ⟨assets, hassets, hall⟩ := exists_mapM_zipIdx _ i 0 hfound
  rw [State.result?, hassets, Option.map_some, rewriting_eq hall]

/-- What was published in the end is what the sites import. -/
theorem Sound.mem_published_iff (h : Sound t o ms s) (hs : s.Succeeded o ms) :
    a ∈ s.published ↔ ∃ x importer site,
      siteOf? o ms x = some (importer, site) ∧ assetFor t o importer site = .ok a := by
  constructor
  · exact h.imported a
  · intro himported
    obtain ⟨x, importer, site, hx, hasset⟩ := himported
    obtain ⟨b, -, hb, hmem, -⟩ := h.exists_finished hs hx
    rw [hasset, Except.ok.injEq] at hb
    exact hb ▸ hmem

end StyleBundler.Hook.Concurrent
