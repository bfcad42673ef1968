import StyleBundler.Proofs.Asset.Loading

/-!
Stylesheets are loaded once. However loads of one path are interleaved, one of them at
a time works, the first that succeeds publishes the asset, and all others get it from
then on. A load that fails changes nothing that others see.
-/

namespace StyleBundler

theorem eq_of_countP_le_one {α : Type} {p : α → Bool} {xs : List α} (h : xs.countP p ≤ 1)
    {i j : Nat} {a b : α} (ha : xs[i]? = some a) (hb : xs[j]? = some b) (hpa : p a = true)
    (hpb : p b = true) : i = j := by
  induction xs generalizing i j with
  | nil => cases ha
  | cons x xs ih =>
      have hpos : ∀ {k : Nat} {c : α}, xs[k]? = some c → p c = true → 0 < xs.countP p :=
        fun hk hc => List.countP_pos_iff.mpr ⟨_, List.mem_of_getElem? hk, hc⟩
      rw [List.countP_cons] at h
      cases i with
      | zero =>
          cases j with
          | zero => rfl
          | succ j =>
              cases ha
              rw [if_pos hpa] at h
              have := hpos hb hpb
              omega
      | succ i =>
          cases j with
          | zero =>
              cases hb
              rw [if_pos hpb] at h
              have := hpos ha hpa
              omega
          | succ j => exact congrArg Nat.succ (ih (by omega) ha hb)

namespace Loading

/-- A load of the path has succeeded with the asset. -/
def Succeeded (s : Loading) (path : Path) (a : Asset) : Prop :=
  ∃ (i : Nat) (l : Load), s.loads[i]? = some l ∧ l.path.Same path ∧ l.phase = .finished (.ok a)

/-- Loads that work for one path are one load. -/
theorem Sound.alone {s : Loading} (h : Sound s) {i j : Nat} {l m : Load} {c d : Nat}
    (hl : s.loads[i]? = some l) (hm : s.loads[j]? = some m) (hsame : l.path.Same m.path)
    (hc : l.phase.work? = some c) (hd : m.phase.work? = some d) : i = j := by
  obtain ⟨a, ha, hla⟩ := h.cell hl (LoadPhase.cell?_of_work? hc)
  obtain ⟨b, hb, hmb⟩ := h.cell hm (LoadPhase.cell?_of_work? hd)
  have hcd : c = d := h.store.distinct.place_eq ha hb ((hla.trans hsame).trans hmb.symm)
  subst hcd
  have hone : s.loads.countP (fun l => l.phase.work? = some c) ≤ 1 := by
    rw [h.held c]
    exact List.nodup_iff_count.mp h.single c
  exact eq_of_countP_le_one hone hl hm (decide_eq_true hc) (decide_eq_true hd)

theorem Sound.loaded?_of_succeeded {s : Loading} (h : Sound s) {path : Path} {a : Asset}
    (ha : s.Succeeded path a) : s.store.loaded? path = some a := by
  obtain ⟨i, l, hl, hsame, hphase⟩ := ha
  rw [← s.store.loaded?_congr hsame]
  exact h.result hl hphase

/-- What was published for a path is what its loads have succeeded with. -/
theorem Sound.publishedAt_of_succeeded {s : Loading} (h : Sound s) {path : Path} {a : Asset}
    (ha : s.Succeeded path a) : s.publishedAt path = [a] := by
  rw [h.published path, h.loaded?_of_succeeded ha]
  rfl

theorem Sound.exists_succeeded {s : Loading} (h : Sound s) {a : Asset} (ha : a ∈ s.published) :
    s.Succeeded a.path a := by
  obtain ⟨x, hx, hasset⟩ := List.mem_filterMap.mp ha
  have hwork : x.work = .publish a := by
    unfold Activity.asset? at hasset
    split at hasset
    · next hwork => exact hwork.trans (congrArg Work.publish (Option.some.inj hasset))
    · cases hasset
  obtain ⟨l, hl, hphase, hpath⟩ := h.publisher x hx a hwork
  exact ⟨x.load, l, hl, congrArg Path.components hpath.symm, hphase⟩

/-- A path is published once if a load of it has succeeded, and not at all otherwise. -/
theorem Sound.length_publishedAt {s : Loading} (h : Sound s) (path : Path) :
    (s.publishedAt path).length ≤ 1 ∧
      ((s.publishedAt path).length = 1 ↔ ∃ a, s.Succeeded path a) := by
  constructor
  · rw [h.published path]
    cases s.store.loaded? path <;> simp
  · constructor
    · intro hlen
      obtain ⟨a, ha⟩ := List.length_eq_one_iff.mp hlen
      have hmem : a ∈ s.publishedAt path := ha ▸ List.mem_cons_self
      obtain ⟨hpublished, hsame⟩ := List.mem_filter.mp hmem
      obtain ⟨i, l, hl, hl', hphase⟩ := h.exists_succeeded hpublished
      exact ⟨a, i, l, hl, hl'.trans (of_decide_eq_true hsame), hphase⟩
    · rintro ⟨a, ha⟩
      rw [h.publishedAt_of_succeeded ha]
      rfl

theorem Sound.step_of_loaded {s s' : Loading} (h : Sound s) (hstep : Step s s') {path : Path}
    {a : Asset} (ha : s.store.loaded? path = some a) :
    s'.store.loaded? path = some a ∧ s'.activityAt path = s.activityAt path := by
  have hidle : ∀ {i c : Nat} {l : Load}, s.loads[i]? = some l → l.phase.work? = some c →
      ¬l.path.Same path := by
    intro i c l hl hc hsame
    have hnone := h.loaded?_eq_none hl hc
    rw [s.store.loaded?_congr hsame, ha] at hnone
    cases hnone
  have hnote : ∀ {i : Nat} {l : Load} (work : Work), ¬l.path.Same path →
      (s.note i l work).activityAt path = s.activityAt path := by
    intro i l work hne
    simp [activityAt, Loading.note, hne]
  cases hstep with
  | request | change | hit | acquire | drop => exact ⟨ha, rfl⟩
  | reserve => exact ⟨(s.store.loaded?_reserve _ path).trans ha, rfl⟩
  | work hl hadvance =>
      obtain ⟨-, c, hc, -⟩ := Load.advance?_cases hadvance
      exact ⟨ha, hnote _ (hidle hl hc)⟩
  | @publish i l c content b hl hphase hb =>
      have hc : l.phase.work? = some c := by rw [hphase]; rfl
      have hne := hidle hl hc
      have hpath : b.path = l.path := hb ▸ rfl
      obtain ⟨cell, hcell, hsame⟩ := h.cell hl (LoadPhase.cell?_of_work? hc)
      refine ⟨?_, hnote _ hne⟩
      refine (AssetStore.loaded?_fill ⟨cell, List.mem_of_getElem? hcell, hpath ▸ hsame⟩
        path).trans ?_
      rw [hpath, if_neg hne, ha]

theorem Sound.steps_of_loaded {s s' : Loading} (h : Sound s) (hsteps : Steps s s') {path : Path}
    {a : Asset} (ha : s.store.loaded? path = some a) :
    s'.store.loaded? path = some a ∧ s'.activityAt path = s.activityAt path := by
  induction hsteps with
  | refl => exact ⟨ha, rfl⟩
  | tail hsteps hstep ih =>
      obtain ⟨hloaded, hsame⟩ := (h.steps hsteps).step_of_loaded hstep ih.1
      exact ⟨hloaded, hsame.trans ih.2⟩

theorem Step.index_eq {s s' : Loading} (hstep : Step s s') (h : s'.published = s.published) :
    s'.store.index = s.store.index := by
  cases hstep with
  | request | change | hit | acquire | work | drop => rfl
  | reserve => exact s.store.index_reserve _
  | @publish i l c content a hl hphase ha =>
      change ({ s with store := s.store.fill a }.note i l (.publish a)).published = _ at h
      rw [published_note] at h
      exact absurd (List.append_right_eq_self.mp h) (List.cons_ne_nil _ _)

/-- A load fails in its reading or transforming, and frees its cell. -/
theorem Sound.step_of_failed {s s' : Loading} (h : Sound s) (hstep : Step s s') {i : Nat}
    {l l' : Load} {e : StyleError} (hl : s.loads[i]? = some l) (hopen : ¬l.phase.IsFinished)
    (hl' : s'.loads[i]? = some l') (hfailed : l'.phase = .finished (.error e)) :
    s'.store = s.store ∧ s'.published = s.published ∧ s'.store.loaded? l.path = none ∧
      ∃ c, l.phase.work? = some c ∧ c ∉ s'.held := by
  have hsame : ¬s.loads[i]? = some l' := by
    intro hsame
    rw [hl, Option.some.injEq] at hsame
    exact hopen ⟨.error e, hsame ▸ hfailed⟩
  have hmoved : ∀ {t : Loading} {j : Nat} {m : Load} {phase : LoadPhase}, t.loads = s.loads →
      t.loads[j]? = some m → (t.move j m phase).loads[i]? = some l' →
      j = i ∧ m = l ∧ phase = .finished (.error e) := by
    intro t j m phase ht hm hmove
    rcases getElem?_move hmove with ⟨rfl, rfl⟩ | ⟨-, hold⟩
    · rw [ht, hl, Option.some.injEq] at hm
      exact ⟨rfl, hm.symm, hfailed⟩
    · exact absurd (ht ▸ hold) hsame
  cases hstep with
  | request path transform =>
      obtain ⟨hi, -⟩ := List.getElem?_eq_some_iff.mp hl
      rw [add, List.getElem?_append_left hi] at hl'
      exact absurd hl' hsame
  | change t => exact absurd hl' hsame
  | reserve hm | publish hm | hit hm | acquire hm | drop hm =>
      obtain ⟨-, -, hphase⟩ := hmoved rfl hm hl'
      cases hphase
  | @work j m work phase hm hadvance =>
      obtain ⟨rfl, rfl, rfl⟩ := hmoved rfl hm hl'
      obtain ⟨hnot, c, hc, -⟩ := Load.advance?_cases hadvance
      refine ⟨rfl, ?_, h.loaded?_eq_none hm hc, c, hc, ?_⟩
      · refine (published_note s j m work).trans ?_
        cases work with
        | read | transform => exact List.append_nil _
        | publish a => exact absurd rfl (hnot a)
      · change c ∉ hold s.held m.phase.work? none
        rw [hc]
        exact h.single.not_mem_erase

theorem getElem?_add (s : Loading) (l : Load) : (s.add l).loads[s.loads.length]? = some l :=
  List.getElem?_concat_length

theorem move_add (s : Loading) (l : Load) (phase : LoadPhase) :
    (s.add l).move s.loads.length l phase =
      { s with held := hold s.held l.phase.work? phase.work? }.add { l with phase := phase } := by
  simp [add, Loading.move]

/-- The load that came last works on its cell, and nothing else changes. -/
theorem exists_step_work (s : Loading) {l : Load} {work : Work} {phase : LoadPhase}
    (h : l.advance? s.tree = some (work, phase)) :
    ∃ t : Loading, t.store = s.store ∧ t.tree = s.tree ∧ t.loads = s.loads ∧
      t.published = s.published ∧ t.held = hold s.held l.phase.work? phase.work? ∧
      Step (s.add l) (t.add { l with phase := phase }) := by
  obtain ⟨hnot, -⟩ := Load.advance?_cases h
  refine ⟨{ s.note s.loads.length l work with held := hold s.held l.phase.work? phase.work? },
    rfl, rfl, rfl, ?_, rfl, ?_⟩
  · refine (published_note s s.loads.length l work).trans ?_
    cases work with
    | read | transform => exact List.append_nil _
    | publish a => exact absurd rfl (hnot a)
  · have hstep := Step.work (getElem?_add s l) h
    exact (move_add (s.note s.loads.length l work) l phase) ▸ hstep

theorem exists_step_publish (s : Loading) (path : Path) (f : Option ContentTransform) (c : Nat)
    {content : String} {a : Asset} (ha : a = .ofContent s.store.staging path content) :
    ∃ t : Loading, t.store = s.store.fill a ∧ t.tree = s.tree ∧ t.loads = s.loads ∧
      t.published = s.published ++ [a] ∧ t.held = s.held.erase c ∧
      Step (s.add ⟨path, f, .publishing c content⟩) (t.add ⟨path, f, .finished (.ok a)⟩) := by
  let l : Load := ⟨path, f, .publishing c content⟩
  let t : Loading := { s with store := s.store.fill a }.note s.loads.length l (.publish a)
  have hstep : Step (s.add l) ((t.add l).move t.loads.length l (.finished (.ok a))) :=
    .publish (getElem?_add s l) rfl ha
  rw [move_add] at hstep
  exact ⟨{ t with held := s.held.erase c }, rfl, rfl, rfl,
    published_note { s with store := s.store.fill a } s.loads.length l (.publish a), rfl, hstep⟩

/-- How far fetching brings a load. -/
def fetched (c : Nat) : Except StyleError String → LoadPhase
  | .ok content => .publishing c content
  | .error e => .finished (.error e)

/-- A load that works on its cell fetches the content, or fails as fetching does. -/
theorem exists_steps_fetch (s : Loading) (path : Path) (f : Option ContentTransform) (c : Nat) :
    ∃ t : Loading, t.store = s.store ∧ t.tree = s.tree ∧ t.loads = s.loads ∧
      t.published = s.published ∧
      t.held = hold s.held (some c) (fetched c (AssetStore.fetch s.tree f path)).work? ∧
      Steps (s.add ⟨path, f, .reading c⟩)
        (t.add ⟨path, f, fetched c (AssetStore.fetch s.tree f path)⟩) := by
  cases hraw : s.tree.readText path with
  | error cause =>
      have hadvance : (⟨path, f, .reading c⟩ : Load).advance? s.tree =
          some (.read, .finished (.error (.read path cause))) := by
        simp only [Load.advance?, hraw]
      obtain ⟨t, hstore, htree, hloads, hpublished, hheld, hstep⟩ := exists_step_work s hadvance
      simp only [AssetStore.fetch, hraw]
      exact ⟨t, hstore, htree, hloads, hpublished, hheld, .tail .refl hstep⟩
  | ok raw =>
      cases f with
      | none =>
          have hadvance : (⟨path, none, .reading c⟩ : Load).advance? s.tree =
              some (.read, .publishing c raw) := by
            simp only [Load.advance?, hraw]
          obtain ⟨t, hstore, htree, hloads, hpublished, hheld, hstep⟩ := exists_step_work s hadvance
          simp only [AssetStore.fetch, hraw]
          exact ⟨t, hstore, htree, hloads, hpublished, hheld, .tail .refl hstep⟩
      | some g =>
          have hadvance : (⟨path, some g, .reading c⟩ : Load).advance? s.tree =
              some (.read, .transforming c raw) := by
            simp only [Load.advance?, hraw]
          obtain ⟨r, hstore, htree, hloads, hpublished, hheld, hread⟩ := exists_step_work s hadvance
          have hadvance : (⟨path, some g, .transforming c raw⟩ : Load).advance? r.tree =
              some (.transform, fetched c (AssetStore.fetch s.tree (some g) path)) := by
            simp only [Load.advance?, AssetStore.fetch, hraw]
            cases g raw <;> rfl
          obtain ⟨t, hstore', htree', hloads', hpublished', hheld', hstep⟩ :=
            exists_step_work r hadvance
          refine ⟨t, hstore'.trans hstore, htree'.trans htree, hloads'.trans hloads,
            hpublished'.trans hpublished, ?_, .tail (.tail .refl hread) hstep⟩
          rw [hheld', hheld]
          rfl

/-- No load works for the path. -/
def Idle (s : Loading) (path : Path) : Prop :=
  ∀ (i : Nat) (l : Load) (c : Nat), s.loads[i]? = some l → l.phase.work? = some c →
    ¬l.path.Same path

theorem Sound.not_mem_held {s : Loading} (h : Sound s) {path : Path} (hidle : s.Idle path)
    {c : Nat} {cell : AssetCell} (hcell : (s.store.reserve path).cells[c]? = some cell)
    (hsame : cell.path.Same path) : c ∉ s.held := by
  intro hc
  rw [← List.count_pos_iff, ← h.held c, List.countP_pos_iff] at hc
  obtain ⟨l, hmem, hwork⟩ := hc
  obtain ⟨i, hl⟩ := List.getElem?_of_mem hmem
  have hwork := of_decide_eq_true hwork
  obtain ⟨other, hother, hsame'⟩ := h.cell hl (LoadPhase.cell?_of_work? hwork)
  have heq := (AssetStore.cells_reserve hother path).symm.trans hcell
  rw [Option.some.injEq] at heq
  exact hidle i l c hl hwork (hsame'.symm.trans (heq ▸ hsame))

/-- A load that no other comes between does what `AssetStore.load` does. -/
theorem Sound.exists_steps_load {s : Loading} (h : Sound s) {path : Path} (hidle : s.Idle path)
    (f : Option ContentTransform) :
    ∃ t : Loading, t.store = (s.store.load s.tree f path).store ∧ t.tree = s.tree ∧
      t.held = s.held ∧ t.loads = s.loads ∧
      t.published = s.published ++ (s.store.load s.tree f path).published ∧
      Steps s (t.add ⟨path, f, .finished (s.store.load s.tree f path).result⟩) := by
  obtain ⟨c, cell, hcell, hsame⟩ := s.store.exists_cell_reserve path
  have hfree := h.not_mem_held hidle hcell hsame
  have hdistinct := (AssetStore.Reachable.reserve path h.store).distinct
  have hasset : s.store.loaded? path = (s.store.reserve path).assetAt? c := by
    rw [← s.store.loaded?_reserve path, hdistinct.loaded?_eq hcell hsame, AssetStore.assetAt?,
      hcell, Option.bind_some]
  let r : Loading := { s with store := s.store.reserve path }
  have hreserve : Steps s (r.add ⟨path, f, .waiting c⟩) := by
    have hstep := Step.reserve (s := s.add ⟨path, f, .requested⟩) (getElem?_add s _) rfl hcell hsame
    exact .tail (.tail .refl (.request path f))
      (move_add r ⟨path, f, .requested⟩ (.waiting c) ▸ hstep)
  cases hloaded : s.store.loaded? path with
  | some a =>
      have hstep := Step.hit (s := r.add ⟨path, f, .waiting c⟩) (getElem?_add r _) rfl
        (hasset ▸ hloaded)
      rw [AssetStore.load_of_loaded hloaded]
      rw [move_add r ⟨path, f, .waiting c⟩] at hstep
      exact ⟨r, rfl, rfl, rfl, rfl, (List.append_nil _).symm, hreserve.tail hstep⟩
  | none =>
      have hstep := Step.acquire (s := r.add ⟨path, f, .waiting c⟩) (getElem?_add r _) rfl
        (hasset ▸ hloaded) hfree
      rw [move_add r ⟨path, f, .waiting c⟩] at hstep
      have hacquire := hreserve.tail hstep
      obtain ⟨t, hstore, htree, hloads, hpublished, hheld, hfetch⟩ :=
        exists_steps_fetch { r with held := c :: s.held } path f c
      change t.held =
        hold (c :: s.held) _ (fetched c (AssetStore.fetch s.tree f path)).work? at hheld
      change Steps _ (t.add ⟨path, f, fetched c (AssetStore.fetch s.tree f path)⟩) at hfetch
      cases hcontent : AssetStore.fetch s.tree f path with
      | error e =>
          rw [hcontent] at hheld hfetch
          rw [AssetStore.load_of_error hloaded hcontent]
          exact ⟨t, hstore, htree, hheld.trans (List.erase_cons_head ..), hloads,
            hpublished.trans (List.append_nil _).symm, hacquire.trans hfetch⟩
      | ok content =>
          rw [hcontent] at hheld hfetch
          rw [AssetStore.load_of_fetched hloaded hcontent]
          have ha : Asset.ofContent s.store.staging path content =
              .ofContent t.store.staging path content := by
            rw [hstore]
            exact congrArg (Asset.ofContent · path content) (s.store.staging_reserve path).symm
          obtain ⟨q, hstore', htree', hloads', hpublished', hheld', hpublish⟩ :=
            exists_step_publish t path f c ha
          refine ⟨q, ?_, htree'.trans htree, ?_, hloads'.trans hloads, ?_,
            (hacquire.trans hfetch).tail hpublish⟩
          · rw [hstore', hstore]
          · rw [hheld', hheld]
            exact List.erase_cons_head ..
          · rw [hpublished', hpublished]
            rfl

/-- Once a load has failed, another one of its path gets through as soon as the
stylesheet can be fetched. -/
theorem Sound.exists_steps_after_failed {s s' : Loading} (h : Sound s) (hstep : Step s s')
    {i : Nat} {l l' : Load} {e : StyleError} (hl : s.loads[i]? = some l)
    (hopen : ¬l.phase.IsFinished) (hl' : s'.loads[i]? = some l')
    (hfailed : l'.phase = .finished (.error e)) {path : Path} (hsame : path.Same l.path)
    {t : FileTree} {f : Option ContentTransform} {content : String}
    (hfetch : AssetStore.fetch t f path = .ok content) :
    ∃ s'', Steps s' s'' ∧
      s''.Succeeded path (.ofContent s.store.staging path content) := by
  obtain ⟨hstore, -, hnone, c, hc, hfree⟩ := h.step_of_failed hstep hl hopen hl' hfailed
  have hchanged : Sound { s' with tree := t } := (h.step hstep).change t
  have hidle : Idle { s' with tree := t } path := by
    intro j m d hm hd hpath
    have hheld := (h.step hstep).mem_held hm hd
    obtain ⟨cell, hcell, hcl⟩ := h.cell hl (LoadPhase.cell?_of_work? hc)
    obtain ⟨other, hother, hdm⟩ := (h.step hstep).cell hm (LoadPhase.cell?_of_work? hd)
    rw [hstore] at hother
    have hplace := h.store.distinct.place_eq hcell hother
      ((hcl.trans (hpath.trans hsame).symm).trans hdm.symm)
    exact hfree (hplace ▸ hheld)
  obtain ⟨r, -, -, -, hloads, -, hsteps⟩ := hchanged.exists_steps_load hidle f
  have hloaded : s'.store.loaded? path = none := by
    rw [s'.store.loaded?_congr hsame, hnone]
  rw [AssetStore.load_of_fetched hloaded hfetch] at hsteps
  rw [← hstore]
  exact ⟨_, .trans (.tail .refl (.change t)) hsteps, r.loads.length, _, getElem?_add r _, rfl, rfl⟩

/-- Whatever the order of steps, and however files change between them: a path is
published once if a load of it succeeds, loads that work at the same time work for
different paths, all loads of a path that succeed get the asset that was published, and
after the first one nothing more is done for the path. Only what succeeds is published
or filed, and a load that fails leaves everything as it was, with nothing loaded for its
path, its cell free to those that wait there, and the path open to later loads. -/
theorem load_once {s : Loading} (hs : Reachable s) :
    (∀ path, (s.publishedAt path).length ≤ 1 ∧
      ((s.publishedAt path).length = 1 ↔ ∃ a, s.Succeeded path a)) ∧
    (∀ (i j : Nat) (l m : Load) (c d : Nat), s.loads[i]? = some l → s.loads[j]? = some m →
      l.path.Same m.path → l.phase.work? = some c → m.phase.work? = some d → i = j) ∧
    (∀ path a, s.Succeeded path a →
      s.publishedAt path = [a] ∧ s.store.loaded? path = some a ∧
      ∀ s', Steps s s' → s'.activityAt path = s.activityAt path ∧
        ∀ b, s'.Succeeded path b → b = a) ∧
    (∀ entry ∈ s.store.index, s.Succeeded entry.2.path entry.2) ∧
    (∀ x ∈ s.log, ∀ a, x.work = .publish a →
      ∃ l, s.loads[x.load]? = some l ∧ l.phase = .finished (.ok a)) ∧
    (∀ s', Step s s' → s'.published = s.published → s'.store.index = s.store.index) ∧
    ∀ (s' : Loading) (i : Nat) (l l' : Load) (e : StyleError), Step s s' →
      s.loads[i]? = some l → ¬l.phase.IsFinished → s'.loads[i]? = some l' →
      l'.phase = .finished (.error e) →
      s'.store = s.store ∧ s'.published = s.published ∧ s'.store.assetName? l.path = none ∧
      (∀ (j : Nat) (m : Load) (c : Nat), s'.loads[j]? = some m → m.path.Same l.path →
        m.phase = .waiting c → Step s' (s'.move j m (.reading c))) ∧
      ∀ path t f content, path.Same l.path → AssetStore.fetch t f path = .ok content →
        ∃ s'', Steps s' s'' ∧ s''.Succeeded path (.ofContent s.store.staging path content) := by
  have h := hs.sound
  refine ⟨h.length_publishedAt, fun _ _ _ _ _ _ => h.alone, ?_, ?_, ?_, ?_, ?_⟩
  · intro path a ha
    have hloaded := h.loaded?_of_succeeded ha
    refine ⟨h.publishedAt_of_succeeded ha, hloaded, ?_⟩
    intro s' hsteps
    obtain ⟨hloaded', hactivity⟩ := h.steps_of_loaded hsteps hloaded
    refine ⟨hactivity, ?_⟩
    intro b hb
    have := (h.steps hsteps).loaded?_of_succeeded hb
    rw [hloaded', Option.some.injEq] at this
    exact this.symm
  · intro entry hentry
    exact h.exists_succeeded (h.index entry hentry)
  · intro x hx a ha
    obtain ⟨l, hl, hphase, -⟩ := h.publisher x hx a ha
    exact ⟨l, hl, hphase⟩
  · intro s' hstep hpublished
    exact hstep.index_eq hpublished
  · intro s' i l l' e hstep hl hopen hl' hfailed
    obtain ⟨hstore, hpublished, hnone, c, hc, hfree⟩ :=
      h.step_of_failed hstep hl hopen hl' hfailed
    refine ⟨hstore, hpublished, ?_, ?_, ?_⟩
    · rw [AssetStore.assetName?, hnone, Option.map_none]
    · intro j m d hm hsame hphase
      have hd : m.phase.cell? = some d := by rw [hphase]; rfl
      have h' := h.step hstep
      obtain ⟨cell, hcell, hcl⟩ := h.cell hl (LoadPhase.cell?_of_work? hc)
      obtain ⟨other, hother, hdm⟩ := h'.cell hm hd
      rw [hstore] at hother
      have hplace := h.store.distinct.place_eq hcell hother (hcl.trans (hdm.trans hsame).symm)
      refine .acquire hm hphase ?_ (hplace ▸ hfree)
      rw [← h'.loaded?_eq hm hd, s'.store.loaded?_congr hsame, hnone]
    · intro path t f content hsame hfetch
      exact h.exists_steps_after_failed hstep hl hopen hl' hfailed hsame hfetch

/-- A stylesheet that is missing when the first of two loads reads it. -/
theorem load_once_retried :
    let path : Path := ⟨"/a.css"⟩
    ∃ s s' : Loading, Reachable s ∧ Step s s' ∧ s'.loads.length = 2 ∧
      s'.store.assetName? path = none ∧
      ∃ s'', Steps s' s'' ∧ s''.Succeeded path (.ofContent false path ".a\x7b\x7d") ∧
        (s''.publishedAt path).length = 1 := by
  intro path
  let missing : FileTree := ⟨[], []⟩
  let written : FileTree := ⟨[(["a.css"], .file ".a\x7b\x7d".toUTF8)], []⟩
  have htext : ("/a.css".toList.contains '\x00') = false := by decide
  have hmissing : missing.readText path = .error .notFound := by
    simp only [FileTree.readText, FileTree.locate, FileTree.checkPath, FileTree.trace, path, htext]
    rfl
  have hwritten : AssetStore.fetch written none path = .ok ".a\x7b\x7d" := by
    have hread : written.readText path = .ok ".a\x7b\x7d" := by
      simp only [FileTree.readText, FileTree.locate, FileTree.checkPath, FileTree.trace, path,
        htext]
      rfl
    simp only [AssetStore.fetch, hread]
  -- From here on the path and the trees are known only by what reading them gives.
  clear_value path missing written
  let store : AssetStore := ⟨[⟨path, none⟩], [], false⟩
  let load (phase : LoadPhase) : Load := ⟨path, none, phase⟩
  have hreserve : store.reserve path = store := by simp [AssetStore.reserve, store, Path.Same]
  have hcell : (store.reserve path).cells[0]? = some ⟨path, none⟩ := by rw [hreserve]; rfl
  let first : Loading := ⟨store, missing, [load (.waiting 0), load .requested], [], []⟩
  have hfirst : Steps (start false missing) first :=
    .tail (.tail (.tail .refl (.request path none)) (.request path none))
      (.reserve (i := 0) (l := load .requested) rfl rfl
        (show _ = some (⟨path, none⟩ : AssetCell) from rfl) (.refl path))
  have hsecond : Step first ({ first with store := store.reserve path }.move 1
      (load .requested) (.waiting 0)) :=
    .reserve (s := first) (l := load .requested) rfl rfl hcell (.refl path)
  rw [hreserve] at hsecond
  let s : Loading := ⟨store, missing, [load (.reading 0), load (.waiting 0)], [0], []⟩
  have hrun : Steps (start false missing) s := (hfirst.tail hsecond).tail
    (.acquire (i := 0) (l := load (.waiting 0)) (c := 0) rfl rfl rfl List.not_mem_nil)
  have hs : Reachable s := ⟨false, missing, hrun⟩
  have hadvance : (load (.reading 0)).advance? s.tree =
      some (.read, .finished (.error (.read path .notFound))) := by
    simp only [Load.advance?, load, s, hmissing]
  have hstep := Step.work (s := s) (i := 0) rfl hadvance
  obtain ⟨-, -, -, -, -, -, hfailed⟩ := load_once hs
  have hopen : ¬(load (.reading 0)).phase.IsFinished :=
    LoadPhase.not_isFinished_of_cell? (c := 0) rfl
  obtain ⟨-, -, hname, -, hlater⟩ := hfailed _ 0 _ _ _ hstep rfl hopen rfl rfl
  obtain ⟨s'', hsteps, hsucceeded⟩ := hlater path written none ".a\x7b\x7d" (.refl path) hwritten
  have hs'' : Reachable s'' := ⟨false, missing, (hrun.tail hstep).trans hsteps⟩
  exact ⟨s, _, hs, hstep, rfl, hname, s'', hsteps, hsucceeded,
    ((load_once hs'').1 path).2.mpr ⟨_, hsucceeded⟩⟩

end Loading
end StyleBundler
