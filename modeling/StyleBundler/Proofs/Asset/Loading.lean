import StyleBundler.Proofs.Asset.Store

/-!
Loads that run side by side. A load gets or makes the cell of its path and waits there
for its turn. One load at a time works on a cell, and only while the cell is empty: it
reads and transforms, and then it publishes its asset and files it, or it fails and leaves
the cell to another one. Files may change between any two steps, and a load that has not
finished may be dropped.

What keeps loads apart (`Sound`) is a fact about cells: an empty cell is free or held by
one load, and a filled one is held by none and agrees with what was published.
-/

namespace StyleBundler

/-- How far a load has come, with the place of its cell. -/
inductive LoadPhase where
  | requested
  | waiting (c : Nat)
  | reading (c : Nat)
  | transforming (c : Nat) (raw : String)
  | publishing (c : Nat) (content : String)
  | finished (result : Except StyleError Asset)
  | dropped

namespace LoadPhase

/-- The cell that a load has got. -/
def cell? : LoadPhase → Option Nat
  | .waiting c | .reading c | .transforming c _ | .publishing c _ => some c
  | _ => none

/-- The cell that a load works on. -/
def work? : LoadPhase → Option Nat
  | .reading c | .transforming c _ | .publishing c _ => some c
  | _ => none

def IsFinished (phase : LoadPhase) : Prop := ∃ result, phase = .finished result

theorem cell?_of_work? {phase : LoadPhase} {c : Nat} (h : phase.work? = some c) :
    phase.cell? = some c := by
  cases phase <;> first | exact h | cases h

theorem not_isFinished_of_cell? {phase : LoadPhase} {c : Nat} (h : phase.cell? = some c) :
    ¬phase.IsFinished := by
  rintro ⟨result, rfl⟩
  cases h

end LoadPhase

structure Load where
  path : Path
  transform : Option ContentTransform
  phase : LoadPhase

/-- Something that a load does on its cell. -/
inductive Work where
  | read
  | transform
  | publish (a : Asset)

namespace Load

/-- What a load that reads or transforms does, and how far that brings it. -/
def advance? (t : FileTree) (l : Load) : Option (Work × LoadPhase) :=
  match l.phase with
  | .reading c =>
      match t.readText l.path, l.transform with
      | .error cause, _ => some (.read, .finished (.error (.read l.path cause)))
      | .ok raw, none => some (.read, .publishing c raw)
      | .ok raw, some _ => some (.read, .transforming c raw)
  | .transforming c raw =>
      match l.transform with
      | none => some (.transform, .publishing c raw)
      | some f =>
          match f raw with
          | .ok content => some (.transform, .publishing c content)
          | .error cause => some (.transform, .finished (.error (.transform l.path cause)))
  | _ => none

/-- A load works on one cell until it fails. -/
theorem advance?_cases {t : FileTree} {l : Load} {work : Work} {phase : LoadPhase}
    (h : l.advance? t = some (work, phase)) :
    (∀ a, work ≠ .publish a) ∧
      ∃ c, l.phase.work? = some c ∧
        (phase.work? = some c ∨ ∃ e, phase = .finished (.error e)) := by
  simp only [advance?] at h
  split at h
  · next c hphase =>
      rw [hphase]
      split at h <;> cases h
      · exact ⟨nofun, c, rfl, .inr ⟨_, rfl⟩⟩
      · exact ⟨nofun, c, rfl, .inl rfl⟩
      · exact ⟨nofun, c, rfl, .inl rfl⟩
  · next c raw hphase =>
      rw [hphase]
      split at h
      · cases h
        exact ⟨nofun, c, rfl, .inl rfl⟩
      · split at h <;> cases h
        · exact ⟨nofun, c, rfl, .inl rfl⟩
        · exact ⟨nofun, c, rfl, .inr ⟨_, rfl⟩⟩
  · cases h

end Load

/-- What one load has done, for a path. -/
structure Activity where
  load : Nat
  path : Path
  work : Work

/-- The asset that was published. -/
def Activity.asset? (x : Activity) : Option Asset :=
  match x.work with
  | .publish a => some a
  | _ => none

structure Loading where
  store : AssetStore
  tree : FileTree
  loads : List Load
  /-- The cells that a load works on. -/
  held : List Nat
  log : List Activity

namespace Loading

def start (staging : Bool) (t : FileTree) : Loading := ⟨.empty staging, t, [], [], []⟩

/-- The assets that were published, in order. -/
def published (s : Loading) : List Asset := s.log.filterMap Activity.asset?

def publishedAt (s : Loading) (path : Path) : List Asset :=
  s.published.filter fun a => a.path.Same path

/-- What was done for a path, in order. -/
def activityAt (s : Loading) (path : Path) : List Activity :=
  s.log.filter fun x => x.path.Same path

def add (s : Loading) (l : Load) : Loading := { s with loads := s.loads ++ [l] }

def note (s : Loading) (i : Nat) (l : Load) (work : Work) : Loading :=
  { s with log := s.log ++ [⟨i, l.path, work⟩] }

/-- Holds the cell that a load begins to work on, or frees the one that it is done with. -/
def hold (held : List Nat) (before after : Option Nat) : List Nat :=
  match before, after with
  | none, some c => c :: held
  | some c, none => held.erase c
  | _, _ => held

def move (s : Loading) (i : Nat) (l : Load) (phase : LoadPhase) : Loading :=
  { s with
    loads := s.loads.set i { l with phase := phase }
    held := hold s.held l.phase.work? phase.work? }

/-- What can happen next. -/
inductive Step (s : Loading) : Loading → Prop
  | request (path : Path) (transform : Option ContentTransform) :
      Step s (s.add ⟨path, transform, .requested⟩)
  | change (t : FileTree) : Step s { s with tree := t }
  | reserve {i : Nat} {l : Load} {c : Nat} {cell : AssetCell} (hl : s.loads[i]? = some l)
      (hphase : l.phase = .requested) (hcell : (s.store.reserve l.path).cells[c]? = some cell)
      (hsame : cell.path.Same l.path) :
      Step s ({ s with store := s.store.reserve l.path }.move i l (.waiting c))
  | hit {i : Nat} {l : Load} {c : Nat} {a : Asset} (hl : s.loads[i]? = some l)
      (hphase : l.phase = .waiting c) (ha : s.store.assetAt? c = some a) :
      Step s (s.move i l (.finished (.ok a)))
  | acquire {i : Nat} {l : Load} {c : Nat} (hl : s.loads[i]? = some l)
      (hphase : l.phase = .waiting c) (hempty : s.store.assetAt? c = none)
      (hfree : c ∉ s.held) : Step s (s.move i l (.reading c))
  | work {i : Nat} {l : Load} {work : Work} {phase : LoadPhase} (hl : s.loads[i]? = some l)
      (h : l.advance? s.tree = some (work, phase)) :
      Step s ((s.note i l work).move i l phase)
  | publish {i : Nat} {l : Load} {c : Nat} {content : String} {a : Asset}
      (hl : s.loads[i]? = some l) (hphase : l.phase = .publishing c content)
      (ha : a = .ofContent s.store.staging l.path content) :
      Step s (({ s with store := s.store.fill a }.note i l (.publish a)).move i l
        (.finished (.ok a)))
  | drop {i : Nat} {l : Load} (hl : s.loads[i]? = some l) (hphase : ¬l.phase.IsFinished) :
      Step s (s.move i l .dropped)

inductive Steps (s : Loading) : Loading → Prop
  | refl : Steps s s
  | tail {s' s'' : Loading} : Steps s s' → Step s' s'' → Steps s s''

theorem Steps.trans {s s' s'' : Loading} (h : Steps s s') (h' : Steps s' s'') : Steps s s'' := by
  induction h' with
  | refl => exact h
  | tail _ hstep ih => exact ih.tail hstep

/-- The states that loads reach from an empty store. -/
def Reachable (s : Loading) : Prop := ∃ staging t, Steps (start staging t) s

/-- What every step keeps. -/
structure Sound (s : Loading) : Prop where
  store : s.store.Reachable
  cell : ∀ {i : Nat} {l : Load} {c : Nat}, s.loads[i]? = some l → l.phase.cell? = some c →
    ∃ cell, s.store.cells[c]? = some cell ∧ cell.path.Same l.path
  /-- A cell is held for each load that works on it. -/
  held : ∀ c, s.loads.countP (fun l => l.phase.work? = some c) = s.held.count c
  single : s.held.Nodup
  vacant : ∀ c ∈ s.held, s.store.assetAt? c = none
  result : ∀ {i : Nat} {l : Load} {a : Asset}, s.loads[i]? = some l →
    l.phase = .finished (.ok a) → s.store.loaded? l.path = some a
  published : ∀ path, s.publishedAt path = (s.store.loaded? path).toList
  publisher : ∀ x ∈ s.log, ∀ a, x.work = .publish a →
    ∃ l, s.loads[x.load]? = some l ∧ l.phase = .finished (.ok a) ∧ a.path = l.path
  index : ∀ entry ∈ s.store.index, entry.2 ∈ s.published

theorem Sound.start (staging : Bool) (t : FileTree) : Sound (start staging t) where
  store := .empty staging
  cell := nofun
  held _ := rfl
  single := List.nodup_nil
  vacant := nofun
  result := nofun
  published _ := rfl
  publisher := nofun
  index := nofun

theorem getElem?_move {s : Loading} {i j : Nat} {l m : Load} {phase : LoadPhase}
    (h : (s.move i l phase).loads[j]? = some m) :
    (j = i ∧ m = { l with phase := phase }) ∨ (j ≠ i ∧ s.loads[j]? = some m) := by
  simp only [move, List.getElem?_set] at h
  split at h
  · next heq =>
      split at h
      · cases h
        exact .inl ⟨heq.symm, rfl⟩
      · cases h
  · next hne => exact .inr ⟨Ne.symm hne, h⟩

theorem getElem?_move_self {s : Loading} {i : Nat} {l : Load} (hl : s.loads[i]? = some l)
    (phase : LoadPhase) : (s.move i l phase).loads[i]? = some { l with phase := phase } := by
  obtain ⟨hi, -⟩ := List.getElem?_eq_some_iff.mp hl
  exact List.getElem?_set_self hi

theorem getElem?_move_ne {s : Loading} {i j : Nat} {m : Load} (hm : s.loads[j]? = some m)
    (hne : j ≠ i) (l : Load) (phase : LoadPhase) :
    (s.move i l phase).loads[j]? = some m := by
  rw [move, List.getElem?_set_ne hne.symm, hm]

/-- Moving a load keeps the account of the cells that are held. -/
theorem countP_move {s : Loading}
    (h : ∀ c, s.loads.countP (fun l => l.phase.work? = some c) = s.held.count c)
    {i : Nat} {l : Load} (hl : s.loads[i]? = some l) (phase : LoadPhase)
    (hwork : ∀ c, l.phase.work? = some c → phase.work? = some c ∨ phase.work? = none) (c : Nat) :
    (s.move i l phase).loads.countP (fun l => l.phase.work? = some c) =
      (s.move i l phase).held.count c := by
  obtain ⟨hi, hget⟩ := List.getElem?_eq_some_iff.mp hl
  have hset := List.countP_set (p := fun l : Load => l.phase.work? = some c)
    (a := { l with phase := phase }) hi
  rw [hget, h c] at hset
  refine hset.trans ?_
  simp only [move]
  cases hbefore : l.phase.work? with
  | none =>
      cases hafter : phase.work? with
      | none => simp [hold]
      | some d => simp [hold, List.count_cons]
  | some d =>
      rcases hwork d hbefore with hafter | hafter
      · have hcount : d = c → 0 < s.held.count c := by
          rintro rfl
          rw [← h d]
          exact List.countP_pos_iff.mpr ⟨l, List.mem_of_getElem? hl, by simp [hbefore]⟩
        simp only [hafter, hold, Option.some.injEq, decide_eq_true_eq]
        split
        · next heq => exact Nat.sub_add_cancel (hcount heq)
        · rfl
      · simp [hafter, hold, List.count_erase]

theorem nodup_hold {held : List Nat} (h : held.Nodup) {before after : Option Nat}
    (hfree : ∀ c, before = none → after = some c → c ∉ held) : (hold held before after).Nodup := by
  cases before with
  | none =>
      cases after with
      | none => exact h
      | some c => exact List.nodup_cons.mpr ⟨hfree c rfl rfl, h⟩
  | some c =>
      cases after with
      | none => exact h.erase c
      | some d => exact h

theorem mem_of_mem_hold {held : List Nat} {before after : Option Nat} {c : Nat}
    (h : c ∈ hold held before after) : c ∈ held ∨ (before = none ∧ after = some c) := by
  cases before with
  | none =>
      cases after with
      | none => exact .inl h
      | some d =>
          rcases List.mem_cons.mp h with rfl | h
          · exact .inr ⟨rfl, rfl⟩
          · exact .inl h
  | some d =>
      cases after with
      | none => exact .inl (List.mem_of_mem_erase h)
      | some e => exact .inl h

theorem Sound.mem_held {s : Loading} (h : Sound s) {i : Nat} {l : Load} {c : Nat}
    (hl : s.loads[i]? = some l) (hwork : l.phase.work? = some c) : c ∈ s.held := by
  rw [← List.count_pos_iff, ← h.held c]
  exact List.countP_pos_iff.mpr ⟨l, List.mem_of_getElem? hl, decide_eq_true hwork⟩

theorem Sound.loaded?_eq {s : Loading} (h : Sound s) {i : Nat} {l : Load} {c : Nat}
    (hl : s.loads[i]? = some l) (hc : l.phase.cell? = some c) :
    s.store.loaded? l.path = s.store.assetAt? c := by
  obtain ⟨cell, hcell, hsame⟩ := h.cell hl hc
  rw [h.store.distinct.loaded?_eq hcell hsame, AssetStore.assetAt?, hcell, Option.bind_some]

/-- While a load works, nothing is loaded for its path. -/
theorem Sound.loaded?_eq_none {s : Loading} (h : Sound s) {i : Nat} {l : Load} {c : Nat}
    (hl : s.loads[i]? = some l) (hwork : l.phase.work? = some c) :
    s.store.loaded? l.path = none := by
  rw [h.loaded?_eq hl (LoadPhase.cell?_of_work? hwork)]
  exact h.vacant c (h.mem_held hl hwork)

/-- An asset was published by another load than one that is still open. -/
theorem Sound.exists_publisher {s : Loading} (h : Sound s) {i : Nat} {l : Load}
    (hl : s.loads[i]? = some l) (hopen : ¬l.phase.IsFinished) {x : Activity} (hx : x ∈ s.log)
    {a : Asset} (ha : x.work = .publish a) :
    x.load ≠ i ∧
      ∃ m, s.loads[x.load]? = some m ∧ m.phase = .finished (.ok a) ∧ a.path = m.path := by
  obtain ⟨m, hm, hphase, hpath⟩ := h.publisher x hx a ha
  refine ⟨?_, m, hm, hphase, hpath⟩
  rintro rfl
  rw [hl, Option.some.injEq] at hm
  exact hopen ⟨.ok a, hm ▸ hphase⟩

theorem Sound.move {s : Loading} (h : Sound s) {i : Nat} {l : Load} (hl : s.loads[i]? = some l)
    (hopen : ¬l.phase.IsFinished) {phase : LoadPhase}
    (hcell : ∀ c, phase.cell? = some c →
      ∃ cell, s.store.cells[c]? = some cell ∧ cell.path.Same l.path)
    (hwork : ∀ c, l.phase.work? = some c → phase.work? = some c ∨ phase.work? = none)
    (hturn : ∀ c, l.phase.work? = none → phase.work? = some c →
      c ∉ s.held ∧ s.store.assetAt? c = none)
    (hresult : ∀ a, phase = .finished (.ok a) → s.store.loaded? l.path = some a) :
    Sound (s.move i l phase) where
  store := h.store
  cell := by
    intro j m c hm hc
    rcases getElem?_move hm with ⟨-, rfl⟩ | ⟨-, hm⟩
    · exact hcell c hc
    · exact h.cell hm hc
  held := countP_move h.held hl _ hwork
  single := nodup_hold h.single fun c hnone hc => (hturn c hnone hc).1
  vacant := by
    intro c hc
    rcases mem_of_mem_hold hc with hc | ⟨hnone, hc⟩
    · exact h.vacant c hc
    · exact (hturn c hnone hc).2
  result := by
    intro j m a hm hphase
    rcases getElem?_move hm with ⟨-, rfl⟩ | ⟨-, hm⟩
    · exact hresult a hphase
    · exact h.result hm hphase
  published := h.published
  publisher := by
    intro x hx a ha
    obtain ⟨hne, m, hm, hphase, hpath⟩ := h.exists_publisher hl hopen hx ha
    exact ⟨m, getElem?_move_ne hm hne l phase, hphase, hpath⟩
  index := h.index

theorem Sound.request {s : Loading} (h : Sound s) (path : Path)
    (transform : Option ContentTransform) :
    Sound (s.add ⟨path, transform, .requested⟩) := by
  have hold : ∀ {i : Nat} {l : Load},
      (s.add ⟨path, transform, .requested⟩).loads[i]? = some l →
      s.loads[i]? = some l ∨ l.phase = .requested := by
    intro i l hl
    rw [add, List.getElem?_append] at hl
    split at hl
    · exact .inl hl
    · rw [List.getElem?_singleton] at hl
      split at hl <;> cases hl
      exact .inr rfl
  refine { h with cell := ?cell, held := ?held, result := ?result, publisher := ?publisher }
  case cell =>
    intro i l c hl hc
    rcases hold hl with hl | hphase
    · exact h.cell hl hc
    · rw [hphase] at hc
      cases hc
  case held =>
    intro c
    rw [add, List.countP_append, h.held c]
    rfl
  case result =>
    intro i l a hl ha
    rcases hold hl with hl | hphase
    · exact h.result hl ha
    · rw [hphase] at ha
      cases ha
  case publisher =>
    intro x hx a ha
    obtain ⟨l, hl, hphase, hpath⟩ := h.publisher x hx a ha
    obtain ⟨hi, -⟩ := List.getElem?_eq_some_iff.mp hl
    exact ⟨l, by rw [add, List.getElem?_append_left hi, hl], hphase, hpath⟩

theorem Sound.change {s : Loading} (h : Sound s) (t : FileTree) : Sound { s with tree := t } :=
  { h with }

theorem Sound.reserve {s : Loading} (h : Sound s) (path : Path) :
    Sound { s with store := s.store.reserve path } := by
  refine { h with store := .reserve path h.store, cell := ?cell, vacant := ?vacant,
                  result := ?result, published := ?published, index := ?index }
  case cell =>
    intro i l c hl hc
    obtain ⟨cell, hcell, hsame⟩ := h.cell hl hc
    exact ⟨cell, AssetStore.cells_reserve hcell path, hsame⟩
  case vacant =>
    intro c hc
    rw [AssetStore.assetAt?_reserve]
    exact h.vacant c hc
  case result =>
    intro i l a hl ha
    rw [AssetStore.loaded?_reserve]
    exact h.result hl ha
  case published =>
    intro q
    rw [AssetStore.loaded?_reserve]
    exact h.published q
  case index =>
    rw [AssetStore.index_reserve]
    exact h.index

theorem published_note (s : Loading) (i : Nat) (l : Load) (work : Work) :
    (s.note i l work).published =
      s.published ++ (Activity.asset? ⟨i, l.path, work⟩).toList := by
  simp only [published, note, List.filterMap_append, List.filterMap_cons, List.filterMap_nil]
  cases Activity.asset? ⟨i, l.path, work⟩ <;> rfl

theorem Sound.note {s : Loading} (h : Sound s) (i : Nat) (l : Load) {work : Work}
    (hwork : ∀ a, work ≠ .publish a) : Sound (s.note i l work) := by
  have hpublished : (s.note i l work).published = s.published := by
    rw [published_note]
    cases work with
    | read | transform => exact List.append_nil _
    | publish a => exact absurd rfl (hwork a)
  refine { h with published := ?published, publisher := ?publisher, index := ?index }
  case published =>
    intro path
    rw [publishedAt, hpublished]
    exact h.published path
  case publisher =>
    intro x hx a ha
    rcases List.mem_append.mp hx with hx | hx
    · exact h.publisher x hx a ha
    · rw [List.mem_singleton.mp hx] at ha
      exact absurd ha (hwork a)
  case index =>
    rw [hpublished]
    exact h.index

theorem assetAt?_fill {s : AssetStore} (hs : s.Distinct) {c d : Nat} {cell : AssetCell} {a : Asset}
    (hcell : s.cells[c]? = some cell) (hsame : cell.path.Same a.path) (hne : d ≠ c) :
    (s.fill a).assetAt? d = s.assetAt? d := by
  cases hd : s.cells[d]? with
  | none =>
      rw [AssetStore.assetAt?, AssetStore.fill, List.getElem?_map, AssetStore.assetAt?, hd]
      rfl
  | some other =>
      have hother : ¬other.path.Same a.path := fun h =>
        hne (hs.place_eq hd hcell (h.trans hsame.symm))
      rw [AssetStore.assetAt?, AssetStore.cells_fill hd, if_neg hother, AssetStore.assetAt?, hd]

theorem publishedAt_publish (s : Loading) (i : Nat) (l : Load) (a : Asset) (path : Path) :
    (s.note i l (.publish a)).publishedAt path =
      s.publishedAt path ++ if a.path.Same path then [a] else [] := by
  rw [publishedAt, published_note, List.filter_append]
  by_cases hp : a.path.Same path <;> simp [publishedAt, Activity.asset?, hp]

theorem Sound.publish {s : Loading} (h : Sound s) {i : Nat} {l : Load} {c : Nat}
    {content : String} {a : Asset} (hl : s.loads[i]? = some l)
    (hphase : l.phase = .publishing c content)
    (ha : a = .ofContent s.store.staging l.path content) :
    Sound (({ s with store := s.store.fill a }.note i l (.publish a)).move i l
      (.finished (.ok a))) := by
  have hpath : a.path = l.path := ha ▸ rfl
  have hc : l.phase.cell? = some c := by rw [hphase]; rfl
  have hwork : l.phase.work? = some c := by rw [hphase]; rfl
  have hnone := h.loaded?_eq_none hl hwork
  have hopen := LoadPhase.not_isFinished_of_cell? hc
  obtain ⟨cell, hcell, hsame⟩ := h.cell hl hc
  rw [← hpath] at hsame
  have hfill := AssetStore.loaded?_fill ⟨cell, List.mem_of_getElem? hcell, hsame⟩
  refine { store := ?store, cell := ?cell, held := ?held, single := ?single, vacant := ?vacant,
           result := ?result, published := ?published, publisher := ?publisher, index := ?index }
  case store =>
    exact ha ▸ .fill _ _ h.store
  case cell =>
    intro j m d hm hd
    rcases getElem?_move hm with ⟨-, rfl⟩ | ⟨-, hm⟩
    · cases hd
    · obtain ⟨other, hother, hsame'⟩ := h.cell hm hd
      refine ⟨_, AssetStore.cells_fill hother a, ?_⟩
      rw [apply_ite AssetCell.path, ite_self]
      exact hsame'
  case held =>
    exact countP_move (s := { s with store := s.store.fill a }.note i l (.publish a)) h.held hl
      (.finished (.ok a)) fun _ _ => .inr rfl
  case single =>
    exact nodup_hold h.single fun _ _ hd => by cases hd
  case vacant =>
    intro d hd
    change d ∈ hold s.held l.phase.work? none at hd
    rw [hwork] at hd
    obtain ⟨hne, hmem⟩ := (List.Nodup.mem_erase_iff h.single).mp hd
    exact (assetAt?_fill h.store.distinct hcell hsame hne).trans (h.vacant d hmem)
  case result =>
    intro j m b hm hb
    refine (hfill m.path).trans ?_
    rcases getElem?_move hm with ⟨-, rfl⟩ | ⟨-, hm⟩
    · cases hb
      exact if_pos (congrArg Path.components hpath)
    · have hloaded := h.result hm hb
      have hne : ¬a.path.Same m.path := by
        intro hsame'
        rw [← s.store.loaded?_congr hsame', hpath, hnone] at hloaded
        cases hloaded
      rw [if_neg hne, hloaded]
  case published =>
    intro path
    refine Eq.trans ?_ (congrArg Option.toList (hfill path).symm)
    refine (publishedAt_publish s i l a path).trans ?_
    rw [h.published path]
    by_cases hp : a.path.Same path
    · rw [if_pos hp, if_pos hp, ← s.store.loaded?_congr hp, hpath, hnone]
      rfl
    · rw [if_neg hp, if_neg hp, List.append_nil]
  case publisher =>
    intro x hx b hb
    rcases List.mem_append.mp hx with hx | hx
    · obtain ⟨hne, m, hm, hfinished, hpath'⟩ := h.exists_publisher hl hopen hx hb
      exact ⟨m, getElem?_move_ne hm hne l _, hfinished, hpath'⟩
    · rw [List.mem_singleton.mp hx] at hb ⊢
      cases hb
      exact ⟨_, getElem?_move_self hl _, rfl, hpath⟩
  case index =>
    intro entry hentry
    change entry.2 ∈ ({ s with store := s.store.fill a }.note i l (.publish a)).published
    rw [published_note]
    rcases AssetStore.mem_index_fill hentry with rfl | hentry
    · exact List.mem_append_right _ List.mem_cons_self
    · exact List.mem_append_left _ (h.index entry hentry)

theorem Sound.step {s s' : Loading} (h : Sound s) (hstep : Step s s') : Sound s' := by
  cases hstep with
  | request path transform => exact h.request path transform
  | change t => exact h.change t
  | @reserve i l c cell hl hphase hcell hsame =>
      refine (h.reserve l.path).move hl ?_ ?_ (fun _ _ => .inr rfl) nofun nofun
      · rw [hphase]
        exact nofun
      · intro d hd
        cases hd
        exact ⟨cell, hcell, hsame⟩
  | @hit i l c a hl hphase ha =>
      have hc : l.phase.cell? = some c := by rw [hphase]; rfl
      refine h.move hl (LoadPhase.not_isFinished_of_cell? hc) nofun (fun _ _ => .inr rfl)
        nofun ?_
      intro b hb
      cases hb
      rw [h.loaded?_eq hl hc, ha]
  | @acquire i l c hl hphase hempty hfree =>
      have hc : l.phase.cell? = some c := by rw [hphase]; rfl
      refine h.move hl (LoadPhase.not_isFinished_of_cell? hc) ?_ ?_ ?_ nofun
      · intro d hd
        cases hd
        exact h.cell hl hc
      · intro d hd
        rw [hphase] at hd
        cases hd
      · intro d hd hd'
        cases hd'
        exact ⟨hfree, hempty⟩
  | @work i l work phase hl hadvance =>
      obtain ⟨hnot, c, hwork, hphase⟩ := Load.advance?_cases hadvance
      have hc := LoadPhase.cell?_of_work? hwork
      refine (h.note i l hnot).move hl (LoadPhase.not_isFinished_of_cell? hc) ?_ ?_ ?_ ?_
      · intro d hd
        rcases hphase with hphase | ⟨e, rfl⟩
        · cases (LoadPhase.cell?_of_work? hphase).symm.trans hd
          exact h.cell hl hc
        · cases hd
      · intro d hd
        rcases hphase with hphase | ⟨e, rfl⟩
        · exact .inl (by rw [hphase, ← hwork, hd])
        · exact .inr rfl
      · intro d hd
        rw [hwork] at hd
        cases hd
      · rintro a rfl
        rcases hphase with hphase | ⟨e, he⟩
        · cases hphase
        · cases he
  | publish hl hphase ha => exact h.publish hl hphase ha
  | drop hl hphase =>
      exact h.move hl hphase nofun (fun _ _ => .inr rfl) nofun nofun

theorem Sound.steps {s s' : Loading} (h : Sound s) (hsteps : Steps s s') : Sound s' := by
  induction hsteps with
  | refl => exact h
  | tail _ hstep ih => exact ih.step hstep

theorem Reachable.sound {s : Loading} (h : Reachable s) : Sound s := by
  obtain ⟨staging, t, hsteps⟩ := h
  exact (Sound.start staging t).steps hsteps

end Loading
end StyleBundler
