import Rulebook.Disk
import Rulebook.Proofs.Results
/-!
What work on files leaves alone. A path leads to the same place as long as no directory is taken
away, so making directories and writing files moves nothing.
-/

set_option autoImplicit false

namespace Rulebook.Disk

@[simp] theorem node_put (d : Disk) (place q : Path) (n : Option Node) :
    (d.put place n).node q = if q = place then n else d.node q := rfl

theorem put_self {d : Disk} {place : Path} {n : Option Node} (h : d.node place = n) :
    d.put place n = d := by
  have hnode : (fun q => if q = place then n else d.node q) = d.node := funext fun q => by
    split <;> simp_all
  rw [put, hnode]

def KeepsDirectories (d d' : Disk) : Prop :=
  ∀ q, d.node q = some .directory → d'.node q = some .directory

theorem KeepsDirectories.trans {d d' d'' : Disk} (h : KeepsDirectories d d')
    (h' : KeepsDirectories d' d'') : KeepsDirectories d d'' := fun q hq => h' q (h q hq)

theorem keepsDirectories_put {d : Disk} {place : Path} (n : Option Node)
    (h : d.node place ≠ some .directory) : KeepsDirectories d (d.put place n) := fun q hq => by
  have hne : q ≠ place := fun he => h (he ▸ hq)
  rw [node_put, if_neg hne, hq]

theorem locateFrom_of_keeps {d d' : Disk} (h : KeepsDirectories d d') {names : List String}
    {place q : Path} (hd : d.locateFrom place names = .ok q) :
    d'.locateFrom place names = .ok q := by
  induction names generalizing place with
  | nil => exact hd
  | cons name names ih =>
    unfold locateFrom at hd ⊢
    cases hn : d.node place with
    | none => simp [hn] at hd
    | some n =>
      cases n with
      | directory =>
        rw [h place hn]
        simp only [hn] at hd ⊢
        cases he : enter place name with
        | error e => simp [he] at hd
        | ok next =>
          simp only [he] at hd ⊢
          exact ih hd
      | file number content => simp [hn] at hd
      | full => simp [hn] at hd

theorem locate_of_keeps {d d' : Disk} (h : KeepsDirectories d d') {p q : Path}
    (hd : d.locate p = .ok q) : d'.locate p = .ok q := by
  unfold locate at hd ⊢
  split at hd
  · cases hd
  · rename_i hzero
    split at hd
    · cases hd
    · rename_i hlong
      rw [if_neg hzero, if_neg hlong, locateFrom_of_keeps h hd]

theorem find_eq_ok {d : Disk} {p : Path} {n : Node} :
    d.find p = .ok n ↔ ∃ place, d.locate p = .ok place ∧ d.node place = some n := by
  unfold find
  cases d.locate p with
  | error e => simp
  | ok place =>
    cases hn : d.node place <;> simp [hn]

theorem read_eq_ok {d : Disk} {p : Path} {content : Bytes} :
    d.read p = .ok content ↔ ∃ number, d.find p = .ok (.file number content) := by
  unfold read
  cases hf : d.find p with
  | error e => simp
  | ok n => cases n <;> simp

theorem openFile_of_notFound {d d' : Disk} {p : Path} {handle : OpenFile}
    (hr : d.read p = .error .notFound) (h : d.openFile p = .ok (handle, d')) :
    d.locate p = .ok handle.place ∧ handle.node = .file d.nextNumber [] ∧
      d' = { d.put handle.place (some (.file d.nextNumber [])) with
        nextNumber := d.nextNumber + 1 } ∧ d.node handle.place = none := by
  unfold openFile at h
  cases hl : d.locate p with
  | error e => simp [hl] at h
  | ok place =>
    cases hn : d.node place with
    | none =>
      simp only [hl, hn, Except.ok.injEq, Prod.mk.injEq] at h
      obtain ⟨rfl, rfl⟩ := h
      exact ⟨rfl, rfl, rfl, hn⟩
    | some n =>
      cases n <;> simp [read, find, hl, hn] at hr

theorem find_directory_of_keeps {d d' : Disk} (h : KeepsDirectories d d') {p : Path}
    (hd : d.find p = .ok .directory) : d'.find p = .ok .directory := by
  obtain ⟨place, hl, hn⟩ := find_eq_ok.1 hd
  exact find_eq_ok.2 ⟨place, locate_of_keeps h hl, h place hn⟩

def Extends (d d' : Disk) : Prop := ∀ q n, d.node q = some n → d'.node q = some n

theorem Extends.keeps {d d' : Disk} (h : Extends d d') : KeepsDirectories d d' := fun q => h q _

theorem makeOne_eq_ok {d d' : Disk} {p : Path} (h : d.makeOne p = .ok d') :
    d'.find p = .ok .directory ∧ Extends d d' := by
  unfold makeOne at h
  cases hl : d.locate p with
  | error e => simp [hl] at h
  | ok place =>
    cases hn : d.node place with
    | none =>
      have hd : d.put place (some .directory) = d' := by simpa [hl, hn] using h
      subst hd
      have hextends : Extends d (d.put place (some .directory)) := fun q n hq => by
        have hne : q ≠ place := fun he => by simp [← he, hq] at hn
        rw [node_put, if_neg hne, hq]
      refine ⟨find_eq_ok.2 ⟨place, locate_of_keeps hextends.keeps hl, ?_⟩, hextends⟩
      rw [node_put, if_pos rfl]
    | some n =>
      cases n with
      | directory =>
        have hd : d = d' := by simpa [hl, hn] using h
        subst hd
        exact ⟨find_eq_ok.2 ⟨place, hl, hn⟩, fun _ _ hq => hq⟩
      | file number content => simp [hl, hn] at h
      | full => simp [hl, hn] at h

theorem makeOne_again {d : Disk} {p : Path} (h : d.find p = .ok .directory) :
    d.makeOne p = .ok d := by
  obtain ⟨place, hl, hn⟩ := find_eq_ok.1 h
  simp [makeOne, hl, hn]

theorem foldlM_makeOne_eq_ok {d d' : Disk} {ps : List Path} (h : ps.foldlM makeOne d = .ok d') :
    (∀ p ∈ ps, d'.find p = .ok .directory) ∧ Extends d d' := by
  induction ps generalizing d with
  | nil =>
    cases h
    exact ⟨by simp, fun _ _ hq => hq⟩
  | cons p ps ih =>
    rw [List.foldlM_cons] at h
    obtain ⟨made, hp, hps⟩ := bind_eq_ok.1 h
    obtain ⟨hdir, hone⟩ := makeOne_eq_ok hp
    obtain ⟨hdirs, hall⟩ := ih hps
    refine ⟨List.forall_mem_cons.2 ⟨find_directory_of_keeps hall.keeps hdir, hdirs⟩, ?_⟩
    exact fun q n hq => hall q n (hone q n hq)

/-- All directories that must stand above what is in this one, and it itself. -/
def WithParents (d : Disk) (p : Path) : Prop := ∀ q ∈ p.above ++ [p], d.find q = .ok .directory

theorem makeDirectory_eq_ok {d d' : Disk} {p : Path} (h : d.makeDirectory p = .ok d') :
    d'.WithParents p ∧ Extends d d' := foldlM_makeOne_eq_ok h

theorem makeDirectory_again {d : Disk} {p : Path} (h : d.WithParents p) :
    d.makeDirectory p = .ok d := by
  unfold makeDirectory
  unfold WithParents at h
  generalize p.above ++ [p] = qs at h
  induction qs with
  | nil => rfl
  | cons q qs ih =>
    obtain ⟨hq, hqs⟩ := List.forall_mem_cons.1 h
    rw [List.foldlM_cons]
    exact bind_eq_ok.2 ⟨d, makeOne_again hq, ih hqs⟩

theorem withParents_of_keeps {d d' : Disk} (h : KeepsDirectories d d') {p : Path}
    (hd : d.WithParents p) : d'.WithParents p :=
  fun q hq => find_directory_of_keeps h (hd q hq)

theorem read_of_setContent {d d' : Disk} {p : Path} {content : Bytes}
    (h : d.setContent p content = .ok d') (hc : content.isEmpty = false) :
    d'.read p = .ok content := by
  unfold setContent at h
  cases hl : d.locate p with
  | error e => simp [hl] at h
  | ok place =>
    cases hn : d.node place with
    | none => simp [hl, hn] at h
    | some n =>
      cases n with
      | directory => simp [hl, hn] at h
      | full => simp [hl, hn, hc] at h
      | file number old =>
        have hd : d.put place (some (.file number content)) = d' := by simpa [hl, hn] using h
        subst hd
        have hkeeps : KeepsDirectories d (d.put place (some (.file number content))) :=
          keepsDirectories_put _ (by simp [hn])
        refine read_eq_ok.2 ⟨number, find_eq_ok.2 ⟨place, locate_of_keeps hkeeps hl, ?_⟩⟩
        rw [node_put, if_pos rfl]

theorem read_of_rename {d d' : Disk} {source target : Path} {content : Bytes}
    (h : d.rename source target = .ok d') (hr : d.read source = .ok content) :
    d'.read target = .ok content := by
  obtain ⟨number, hf⟩ := read_eq_ok.1 hr
  obtain ⟨place, hl, hn⟩ := find_eq_ok.1 hf
  unfold rename at h
  cases ht : d.locate target with
  | error e => simp [hf, hl, ht] at h
  | ok goal =>
    simp only [hf, hl, ht] at h
    split at h
    · cases h
    · rename_i hgoal
      have hfree : (d.put place none).node goal ≠ some .directory := fun hdir => by
        rw [node_put] at hdir
        split at hdir
        · cases hdir
        · exact hgoal hdir
      have hkeeps := (keepsDirectories_put none (by simp [hn])).trans
        (keepsDirectories_put (some (.file number content)) hfree)
      obtain rfl : (d.put place none).put goal (some (.file number content)) = d' := by
        simpa using h
      refine read_eq_ok.2 ⟨number, find_eq_ok.2 ⟨goal, locate_of_keeps hkeeps ht, ?_⟩⟩
      rw [node_put, if_pos rfl]

theorem performAll_cons {d d' : Disk} {s : Step} {ss : List Step} :
    d.performAll none (s :: ss) = (.ok (), d') ↔
      ∃ made, d.perform s = .ok made ∧ made.performAll none ss = (.ok (), d') := by
  rw [performAll]
  cases d.perform s <;> simp

end Rulebook.Disk
