import Rulebook.Disk
import Rulebook.Proofs.Results
/-!
Work on files does not depend on what files hold. On two disks that differ in nothing else the same
steps succeed or fail alike, and the disks still differ in nothing else.
-/

set_option autoImplicit false

namespace Rulebook.Disk

/-- The same but for the content of a file. -/
inductive AlikeNodes : Option Node → Option Node → Prop where
  | none : AlikeNodes none none
  | directory : AlikeNodes (some .directory) (some .directory)
  | file (number : Nat) (content content' : Bytes) :
      AlikeNodes (some (.file number content)) (some (.file number content'))
  | full : AlikeNodes (some .full) (some .full)

theorem AlikeNodes.refl (n : Option Node) : AlikeNodes n n := by
  cases n with
  | none => exact .none
  | some n =>
    cases n with
    | directory => exact .directory
    | file number content => exact .file number content content
    | full => exact .full

structure Alike (d d' : Disk) : Prop where
  node : ∀ place, AlikeNodes (d.node place) (d'.node place)
  next : d.nextNumber = d'.nextNumber

theorem Alike.refl (d : Disk) : Alike d d := ⟨fun _ => .refl _, rfl⟩

inductive AlikeResults : Except DiskError Disk → Except DiskError Disk → Prop where
  | error (e : DiskError) : AlikeResults (.error e) (.error e)
  | ok {d d' : Disk} (h : Alike d d') : AlikeResults (.ok d) (.ok d')

namespace Alike

variable {d d' : Disk}

theorem put (h : Alike d d') (place : Path) {n n' : Option Node} (hn : AlikeNodes n n') :
    Alike (d.put place n) (d'.put place n') := by
  refine ⟨fun q => ?_, h.next⟩
  simp only [Disk.put]
  split
  · exact hn
  · exact h.node q

theorem locateFrom (h : Alike d d') (place : Path) (names : List String) :
    d.locateFrom place names = d'.locateFrom place names := by
  induction names generalizing place with
  | nil => rfl
  | cons name names ih =>
    unfold Disk.locateFrom
    have hn := h.node place
    generalize d.node place = n, d'.node place = n' at hn
    cases hn with
    | directory =>
      cases enter place name with
      | error e => rfl
      | ok next => exact ih next
    | _ => rfl

theorem locate (h : Alike d d') (p : Path) : d.locate p = d'.locate p := by
  unfold Disk.locate
  rw [h.locateFrom]

theorem makeOne (h : Alike d d') (p : Path) : AlikeResults (d.makeOne p) (d'.makeOne p) := by
  unfold Disk.makeOne
  rw [h.locate]
  cases d'.locate p with
  | error e => exact .error e
  | ok place =>
    have hn := h.node place
    dsimp only
    generalize d.node place = n, d'.node place = n' at hn
    cases hn with
    | none => exact .ok (h.put place .directory)
    | directory => exact .ok h
    | file | full => exact .error .exists

theorem makeDirectory (h : Alike d d') (p : Path) :
    AlikeResults (d.makeDirectory p) (d'.makeDirectory p) := by
  unfold Disk.makeDirectory
  generalize Path.above p ++ [p] = qs
  induction qs generalizing d d' with
  | nil => exact .ok h
  | cons q qs ih =>
    rw [List.foldlM_cons, List.foldlM_cons]
    have hone := h.makeOne q
    generalize d.makeOne q = r, d'.makeOne q = r' at hone
    cases hone with
    | error e => exact .error e
    | ok hmade => exact ih hmade

theorem setContent (h : Alike d d') (p : Path) (content : Bytes) :
    AlikeResults (d.setContent p content) (d'.setContent p content) := by
  unfold Disk.setContent
  rw [h.locate]
  cases d'.locate p with
  | error e => exact .error e
  | ok place =>
    have hn := h.node place
    dsimp only
    generalize d.node place = n, d'.node place = n' at hn
    cases hn with
    | none => exact .error .notFound
    | directory => exact .error .isADirectory
    | file number old old' => exact .ok (h.put place (.refl _))
    | full =>
      cases content with
      | nil => exact .ok h
      | cons b bs => exact .error .noSpace

theorem create (h : Alike d d') (p : Path) : AlikeResults (d.create p) (d'.create p) := by
  unfold Disk.create Disk.openFile
  rw [h.locate]
  cases d'.locate p with
  | error e => exact .error e
  | ok place =>
    have hn := h.node place
    dsimp only
    generalize d.node place = n, d'.node place = n' at hn
    cases hn with
    | none =>
      have hput : Alike (d.put place (some (.file d.nextNumber [])))
          (d'.put place (some (.file d'.nextNumber []))) := by
        rw [h.next]
        exact h.put place (.refl _)
      have hopened : Alike
          { d.put place (some (.file d.nextNumber [])) with nextNumber := d.nextNumber + 1 }
          { d'.put place (some (.file d'.nextNumber [])) with nextNumber := d'.nextNumber + 1 } :=
        ⟨hput.node, congrArg (· + 1) h.next⟩
      exact hopened.setContent p []
    | directory => exact .error .isADirectory
    | file | full => exact h.setContent p []

theorem rename (h : Alike d d') (source target : Path) :
    AlikeResults (d.rename source target) (d'.rename source target) := by
  unfold Disk.rename Disk.find
  rw [h.locate, h.locate]
  cases d'.locate source with
  | error e => exact .error e
  | ok place =>
    have hn := h.node place
    dsimp only
    generalize d.node place = n, d'.node place = n' at hn
    cases d'.locate target with
    | error e =>
      cases hn with
      | none => exact .error .notFound
      | directory | file | full => exact .error e
    | ok goal =>
      have hgoal := h.node goal
      have hmoved : ∀ {m m'}, AlikeNodes (some m) (some m') →
          AlikeResults (.ok ((d.put place none).put goal (some m)))
            (.ok ((d'.put place none).put goal (some m'))) :=
        fun hm => .ok ((h.put place .none).put goal hm)
      cases hn with
      | none => exact .error .notFound
      | directory | file | full =>
        dsimp only
        generalize d.node goal = g, d'.node goal = g' at hgoal
        cases hgoal with
        | directory => exact .error .isADirectory
        | none | file | full => exact hmoved (by constructor)

theorem perform (h : Alike d d') (s : Step) : AlikeResults (d.perform s) (d'.perform s) := by
  cases s with
  | makeDirectory p => exact h.makeDirectory p
  | create p => exact h.create p
  | write p content => exact h.setContent p content
  | sync p => exact .ok h
  | rename source target => exact h.rename source target

theorem breakOff (h : Alike d d') (written : Nat) (s : Step) :
    Alike (d.breakOff written s) (d'.breakOff written s) := by
  cases s with
  | write p content =>
    simp only [Disk.breakOff]
    have hset := h.setContent p (content.take written)
    generalize d.setContent p (content.take written) = r,
      d'.setContent p (content.take written) = r' at hset
    cases hset with
    | error e => exact h
    | ok hwritten => exact hwritten
  | _ => exact h

theorem performAll (h : Alike d d') (interruption : Option Interruption) (ss : List Step) :
    (d.performAll interruption ss).1 = (d'.performAll interruption ss).1 ∧
      Alike (d.performAll interruption ss).2 (d'.performAll interruption ss).2 := by
  induction ss generalizing d d' interruption with
  | nil => exact ⟨rfl, h⟩
  | cons s ss ih =>
    have hs := h.perform s
    unfold Disk.performAll
    split
    · exact ⟨rfl, h.breakOff _ s⟩
    all_goals
      generalize d.perform s = r, d'.perform s = r' at hs
      cases hs with
      | error e => exact ⟨rfl, h⟩
      | ok hmade => exact ih hmade _

end Alike

end Rulebook.Disk
