import Rulebook.Proofs.Disk
/-!
What work on files may change. A step changes what stands where its paths lead and makes directories
where nothing stood; all else on the disk is as it was, also when the work breaks off.
-/

set_option autoImplicit false

namespace Rulebook.Disk

/-- The paths where a step puts or takes something that is no directory. -/
def Step.touches : Step → List Path
  | .makeDirectory _ | .sync _ => []
  | .create p | .write p _ => [p]
  | .rename source target => [source, target]

/-- Directories stay. Where none of the paths leads everything else stays too, and nothing is new but
directories. -/
structure Spares (ps : List Path) (d d' : Disk) : Prop where
  keeps : KeepsDirectories d d'
  elsewhere : ∀ place, (∀ p ∈ ps, d'.locate p ≠ .ok place) →
    d'.node place = d.node place ∨ d.node place = none ∧ d'.node place = some .directory

namespace Spares

variable {ps : List Path} {d d' d'' : Disk} {p place : Path}

theorem refl (ps : List Path) (d : Disk) : Spares ps d d := ⟨fun _ h => h, fun _ _ => .inl rfl⟩

theorem trans (h : Spares ps d d') (h' : Spares ps d' d'') : Spares ps d d'' := by
  refine ⟨h.keeps.trans h'.keeps, fun place hplace => ?_⟩
  have hearlier : ∀ p ∈ ps, d'.locate p ≠ .ok place := fun p hp hl =>
    hplace p hp (locate_of_keeps h'.keeps hl)
  rcases h.elsewhere place hearlier with hsame | ⟨hnone, hdir⟩
  · rw [← hsame]
    exact h'.elsewhere place hplace
  · exact .inr ⟨hnone, h'.keeps place hdir⟩

theorem mono {qs : List Path} (h : Spares ps d d') (hps : ps ⊆ qs) : Spares qs d d' :=
  ⟨h.keeps, fun place hplace => h.elsewhere place fun p hp => hplace p (hps hp)⟩

theorem stands (h : Spares ps d d') (hplace : ∀ p ∈ ps, d'.locate p ≠ .ok place) {n : Node}
    (hn : d.node place = some n) : d'.node place = some n := by
  rcases h.elsewhere place hplace with hsame | ⟨hnone, -⟩
  · rw [hsame, hn]
  · rw [hn] at hnone
    cases hnone

/-- A file elsewhere was there before, and a file that was there before still is. -/
theorem file_iff (h : Spares ps d d') (hplace : ∀ p ∈ ps, d'.locate p ≠ .ok place) {number : Nat}
    {content : Bytes} :
    d'.node place = some (.file number content) ↔ d.node place = some (.file number content) := by
  refine ⟨fun hn => ?_, h.stands hplace⟩
  rcases h.elsewhere place hplace with hsame | ⟨-, hdir⟩
  · rw [← hsame, hn]
  · rw [hdir] at hn
    cases hn

theorem find (h : Spares ps d d')
    (hp : ∀ place, d'.locate p = .ok place → ∀ q ∈ ps, d'.locate q ≠ .ok place) {n : Node}
    (hfind : d.find p = .ok n) : d'.find p = .ok n := by
  obtain ⟨place, hl, hn⟩ := find_eq_ok.1 hfind
  have hlocate := locate_of_keeps h.keeps hl
  exact find_eq_ok.2 ⟨place, hlocate, h.stands (hp place hlocate) hn⟩

theorem put (hp : p ∈ ps) (hl : d.locate p = .ok place) (hn : d.node place ≠ some .directory)
    (n : Option Node) : Spares ps d (d.put place n) := by
  have hkeeps := keepsDirectories_put n hn
  refine ⟨hkeeps, fun q hq => .inl ?_⟩
  have hne : q ≠ place := fun he => hq p hp (he ▸ locate_of_keeps hkeeps hl)
  rw [node_put, if_neg hne]

end Spares

variable {ps : List Path} {d d' : Disk} {p : Path}

theorem spares_makeOne (h : d.makeOne p = .ok d') : Spares ps d d' := by
  refine ⟨(makeOne_eq_ok h).2.keeps, fun q _ => ?_⟩
  unfold makeOne at h
  split at h
  · cases h
  · rename_i place hl
    split at h
    · cases h
      exact .inl rfl
    · cases h
    · rename_i hn
      cases h
      rw [node_put]
      split
      · rename_i hq
        exact .inr ⟨hq ▸ hn, rfl⟩
      · exact .inl rfl

theorem spares_makeDirectory (h : d.makeDirectory p = .ok d') : Spares ps d d' := by
  unfold makeDirectory at h
  generalize Path.above p ++ [p] = qs at h
  induction qs generalizing d with
  | nil =>
    cases h
    exact .refl ps _
  | cons q qs ih =>
    rw [List.foldlM_cons] at h
    obtain ⟨made, hq, hqs⟩ := bind_eq_ok.1 h
    exact (spares_makeOne hq).trans (ih hqs)

theorem spares_openFile {handle : OpenFile} (hp : p ∈ ps)
    (h : d.openFile p = .ok (handle, d')) : Spares ps d d' := by
  unfold openFile at h
  split at h
  · cases h
  · rename_i place hl
    split at h
    · cases h
    · cases h
      exact .refl ps d
    · rename_i hn
      cases h
      -- The number for the next file is no part of what stands on the disk.
      exact (Spares.put hp hl (by simp [hn]) _).trans ⟨fun _ hq => hq, fun _ _ => .inl rfl⟩

theorem located_of_openFile {handle : OpenFile} (h : d.openFile p = .ok (handle, d')) :
    d'.locate p = .ok handle.place ∧ d'.node handle.place = some handle.node := by
  have hkeeps := (spares_openFile (List.mem_singleton_self p) h).keeps
  unfold openFile at h
  split at h
  · cases h
  · rename_i place hl
    split at h
    · cases h
    · rename_i hn
      cases h
      exact ⟨hl, hn⟩
    · cases h
      exact ⟨locate_of_keeps hkeeps hl, by simp⟩

theorem spares_setContent {content : Bytes} (hp : p ∈ ps)
    (h : d.setContent p content = .ok d') : Spares ps d d' := by
  unfold setContent at h
  split at h
  · cases h
  · rename_i place hl
    split at h
    · rename_i hn
      cases h
      exact .put hp hl (by simp [hn]) _
    · split at h
      · cases h
        exact .refl ps d
      · cases h
    · cases h
    · cases h

theorem spares_rename {source target : Path} (hsource : source ∈ ps) (htarget : target ∈ ps)
    (hn : d.find source ≠ .ok .directory) (h : d.rename source target = .ok d') :
    Spares ps d d' := by
  unfold rename at h
  split at h
  · cases h
  · cases h
  · cases h
  · rename_i n place goal hf hl ht
    obtain ⟨place', hl', hplace⟩ := find_eq_ok.1 hf
    obtain rfl : place' = place := by
      rw [hl] at hl'
      cases hl'
      rfl
    have hfile : d.node place' ≠ some .directory := fun hdir => by
      rw [hdir] at hplace
      cases hplace
      exact hn hf
    split at h
    · cases h
    · rename_i hgoal
      cases h
      have htaken := Spares.put hsource hl hfile none
      have hfree : (d.put place' none).node goal ≠ some .directory := fun hdir => by
        rw [node_put] at hdir
        split at hdir
        · cases hdir
        · exact hgoal hdir
      exact htaken.trans (.put htarget (locate_of_keeps htaken.keeps ht) hfree _)

theorem spares_perform {s : Step} (hs : s.touches ⊆ ps) (h : d.perform s = .ok d')
    (hmoved : ∀ source target, s = .rename source target → d.find source ≠ .ok .directory) :
    Spares ps d d' := by
  cases s with
  | makeDirectory p => exact spares_makeDirectory h
  | create p =>
    have hp : p ∈ ps := hs List.mem_cons_self
    obtain ⟨⟨handle, opened⟩, hopen, hset⟩ := bind_eq_ok.1 h
    exact (spares_openFile hp hopen).trans (spares_setContent hp hset)
  | write p content => exact spares_setContent (hs List.mem_cons_self) h
  | sync p =>
    cases h
    exact .refl ps d
  | rename source target =>
    exact spares_rename (hs List.mem_cons_self) (hs (by simp [Step.touches])) (hmoved _ _ rfl) h

theorem spares_breakOff {s : Step} (written : Nat)
    (hs : ∀ p content, s = .write p content → p ∈ ps) :
    Spares ps d (d.breakOff written s) := by
  cases s with
  | write p content =>
    change Spares ps d ((d.setContent p (content.take written)).toOption.getD d)
    cases h : d.setContent p (content.take written) with
    | error e => exact .refl ps d
    | ok made => exact spares_setContent (hs p content rfl) h
  | _ => exact .refl ps d

/-- Work breaks off at its first step, fails there, or goes on behind it. -/
theorem performAll_cons_cases {interruption : Option Interruption} {s : Step} {ss : List Step}
    {result : Except DiskError Unit} (h : d.performAll interruption (s :: ss) = (result, d')) :
    (∃ e, result = .error e ∧ ∃ written, d' = d.breakOff written s) ∨
    (∃ e, result = .error e ∧ d' = d) ∨
    ∃ made rest, d.perform s = .ok made ∧ made.performAll rest ss = (result, d') := by
  unfold performAll at h
  split at h
  · cases h
    exact .inl ⟨_, rfl, _, rfl⟩
  · split at h
    · exact .inr (.inr ⟨_, _, ‹_›, h⟩)
    · cases h
      exact .inr (.inl ⟨_, rfl, rfl⟩)
  · split at h
    · exact .inr (.inr ⟨_, _, ‹_›, h⟩)
    · cases h
      exact .inr (.inl ⟨_, rfl, rfl⟩)

theorem performAll_of_ok {interruption : Option Interruption} {ss : List Step}
    (h : d.performAll interruption ss = (.ok (), d')) : d.performAll none ss = (.ok (), d') := by
  induction ss generalizing d interruption with
  | nil => exact h
  | cons s ss ih =>
    rcases performAll_cons_cases h with ⟨_, he, -⟩ | ⟨_, he, -⟩ | ⟨made, rest, hperform, hrest⟩
    · cases he
    · cases he
    · exact performAll_cons.2 ⟨made, hperform, ih hrest⟩

/-- Work that ends with a renaming has not come to it, or not done it, if it fails. -/
theorem spares_of_performAll_error {interruption : Option Interruption} {steps : List Step}
    {source target : Path} {e : DiskError}
    (hsteps : ∀ s ∈ steps, s.touches ⊆ ps ∧ ∀ a b, s ≠ .rename a b)
    (h : d.performAll interruption (steps ++ [.rename source target]) = (.error e, d')) :
    Spares ps d d' := by
  induction steps generalizing d interruption with
  | nil =>
    rcases performAll_cons_cases h with ⟨_, -, written, rfl⟩ | ⟨_, -, rfl⟩ | ⟨made, rest, -, hrest⟩
    · exact .refl ps _
    · exact .refl ps d'
    · cases rest <;> cases hrest
  | cons s steps ih =>
    obtain ⟨⟨htouches, hmoves⟩, hsteps⟩ := List.forall_mem_cons.1 hsteps
    rcases performAll_cons_cases h with ⟨_, -, written, rfl⟩ | ⟨_, -, rfl⟩ | ⟨made, rest, hs, hrest⟩
    · refine spares_breakOff written fun p content he => htouches ?_
      rw [he]
      exact List.mem_cons_self
    · exact .refl ps d'
    · have hmoved : ∀ a b, s = .rename a b → d.find a ≠ .ok .directory := fun a b he =>
        absurd he (hmoves a b)
      exact (spares_perform htouches hs hmoved).trans (ih hsteps hrest)

end Rulebook.Disk
