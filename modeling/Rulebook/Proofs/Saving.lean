import Rulebook.Proofs.Disk.Paths
import Rulebook.Proofs.Snapshot
/-!
Saving a snapshot. A save that fails at any step has touched nothing but the temporary file, which
stands beside the snapshot file under another name.
-/

set_option autoImplicit false

namespace Rulebook

namespace Snapshot

variable {p : Path}

theorem temporary_of_unnamed
    (hname : ∀ name, p.plain.getLast? = some name → name = "" ∨ name = "..") : temporary p = p := by
  unfold temporary Path.withExtension
  split
  · rfl
  · rfl
  · rfl
  · rename_i name hempty hback hlast
    rcases hname name hlast with rfl | rfl
    · exact absurd rfl hempty
    · exact absurd rfl hback

theorem temporary_of_name {name : String} (hlast : p.plain.getLast? = some name)
    (hname : ¬ (name = "" ∨ name = "..")) :
    temporary p = p.plain.dropLast ++ [Path.stem name ++ "." ++ "tmp"] := by
  unfold temporary Path.withExtension
  rw [hlast]
  split
  · rename_i h
    cases h
  · rename_i h
    cases h
    exact absurd (.inl rfl) hname
  · rename_i h
    cases h
    exact absurd (.inr rfl) hname
  · rename_i h
    cases h
    rfl

theorem temporaryName_ne (base : String) : base ++ "." ++ "tmp" ≠ "" ∧
    base ++ "." ++ "tmp" ≠ "." ∧ base ++ "." ++ "tmp" ≠ ".." := by
  have hextension : "tmp".length = 3 := rfl
  have hdot : ".".length = 1 := rfl
  have hback : "..".length = 2 := rfl
  have hlength : (base ++ "." ++ "tmp").length = base.length + 4 := by
    rw [String.length_append, String.length_append, hdot, hextension]
  refine ⟨fun he => ?_, fun he => ?_, fun he => ?_⟩
  · rw [he, String.length_empty] at hlength
    omega
  · rw [he, hdot] at hlength
    omega
  · rw [he, hback] at hlength
    omega

theorem plain_temporaryName (above : Path) (base : String) :
    Path.plain (above ++ [base ++ "." ++ "tmp"]) = above ++ [base ++ "." ++ "tmp"] := by
  rw [Path.plain, List.getLast?_concat, if_neg]
  exact fun he => (temporaryName_ne base).2.1 (Option.some.inj he)

/-- The temporary file has another name in the directory of the snapshot file. -/
theorem temporary_eq (h : (temporary p).plain ≠ p.plain) :
    ∃ above name tmp, p.plain = above ++ [name] ∧ temporary p = above ++ [tmp] ∧ tmp ≠ name ∧
      name ≠ "" ∧ name ≠ ".." ∧ tmp ≠ "" ∧ tmp ≠ "." ∧ tmp ≠ ".." := by
  by_cases hunnamed : ∀ name, p.plain.getLast? = some name → name = "" ∨ name = ".."
  · exact absurd (congrArg Path.plain (temporary_of_unnamed hunnamed)) h
  · push Not at hunnamed
    obtain ⟨name, hlast, hempty, hback⟩ := hunnamed
    have htemporary := temporary_of_name hlast (not_or.2 ⟨hempty, hback⟩)
    have hplain : p.plain = p.plain.dropLast ++ [name] :=
      (List.dropLast_append_getLast? _ hlast).symm
    refine ⟨_, name, _, hplain, htemporary, ?_, hempty, hback, temporaryName_ne _⟩
    intro hsame
    rw [htemporary, plain_temporaryName, hsame] at h
    exact h hplain.symm

/-- A snapshot file and its temporary file never stand at the same place. -/
theorem temporary_apart {disk : Disk} {p place tmp : Path} (h : (temporary p).plain ≠ p.plain)
    (hp : disk.locate p = .ok place) (ht : disk.locate (temporary p) = .ok tmp) : place ≠ tmp := by
  obtain ⟨above, name, other, hplain, htemporary, hne, hempty, hback, hother⟩ := temporary_eq h
  have hp := Disk.locateFrom_plain (Disk.locateFrom_of_locate hp)
  have ht := Disk.locateFrom_of_locate ht
  rw [hplain] at hp
  rw [htemporary] at ht
  obtain ⟨base, hbase, -, henter⟩ := Disk.locateFrom_concat.1 hp
  obtain ⟨base', hbase', -, henter'⟩ := Disk.locateFrom_concat.1 ht
  obtain rfl : base = base' := by
    rw [hbase] at hbase'
    cases hbase'
    rfl
  have htmp : tmp = base ++ [other] := Disk.enter_name hother henter'
  rw [htmp]
  rintro rfl
  simp only [Disk.enter, hempty, hback, if_false] at henter
  split at henter
  · simp at henter
  · split at henter
    · cases henter
    · have heq : name = other := by simpa using henter
      exact hne heq.symm

theorem performAll_of_save {disk disk' : Disk} {p : Path} {interruption : Option Disk.Interruption}
    {sets : List RuleSet} {result : Except SnapshotError Unit}
    (h : save disk p interruption sets = (result, disk')) :
    ∃ raw, disk.performAll interruption (saveSteps p sets) = (raw, disk') ∧
      raw.mapError .disk = result := by
  unfold save at h
  split at h <;> cases h <;> exact ⟨_, ‹_›, rfl⟩

theorem save_of_ok {disk disk' : Disk} {p : Path} {interruption : Option Disk.Interruption}
    {sets : List RuleSet} (h : save disk p interruption sets = (.ok (), disk')) :
    save disk p none sets = (.ok (), disk') := by
  obtain ⟨raw, hall, hraw⟩ := performAll_of_save h
  cases raw with
  | error e => cases hraw
  | ok done => rw [save, Disk.performAll_of_ok hall]

/-- A registry and one rule set more: the file is that of the registry with the rule set in it. -/
theorem readText_of_save_insert {disk disk' : Disk} {p : Path}
    {interruption : Option Disk.Interruption} {g : Registry} {s : RuleSet} (h : g.Keyed)
    (hfree : g.contains s.id = false)
    (hsave : save disk p interruption (g.list ++ [s]) = (.ok (), disk')) :
    disk'.readText p = .ok (text (Registry.list ⟨g.table.insert s.id s⟩)) := by
  obtain ⟨hkeyed, hperm⟩ := h.insert hfree
  rw [readText_of_save (save_of_ok hsave), text_of_perm hkeyed hperm]

theorem spares_of_performAll_ok {made disk' : Disk} {p : Path} {sets : List RuleSet}
    (h : made.performAll none (saveSteps p sets).tail = (.ok (), disk')) :
    Disk.Spares [temporary p, p] made disk' := by
  obtain ⟨created, hcreate, hall⟩ := Disk.performAll_cons.1 h
  obtain ⟨written, hwrite, hall⟩ := Disk.performAll_cons.1 hall
  obtain ⟨synced, hsync, hall⟩ := Disk.performAll_cons.1 hall
  obtain ⟨renamed, hrename, hend⟩ := Disk.performAll_cons.1 hall
  cases hsync
  cases hend
  obtain ⟨number, hfile⟩ :=
    Disk.read_eq_ok.1 (Disk.read_of_setContent hwrite (text_not_empty sets))
  have hcreated : Disk.Spares [temporary p, p] made created :=
    Disk.spares_perform (by simp [Disk.Step.touches]) hcreate (by rintro _ _ ⟨⟩)
  have hwritten : Disk.Spares [temporary p, p] created written :=
    Disk.spares_perform (by simp [Disk.Step.touches]) hwrite (by rintro _ _ ⟨⟩)
  have hrenamed : Disk.Spares [temporary p, p] written disk' := by
    refine Disk.spares_perform (by simp [Disk.Step.touches]) hrename fun source target he => ?_
    cases he
    simp [hfile]
  exact hcreated.trans (hwritten.trans hrenamed)

/-- A save fails before it has done anything, or with the temporary file, or it succeeds. -/
theorem save_cases {disk disk' : Disk} {p : Path} {interruption : Option Disk.Interruption}
    {sets : List RuleSet} {result : Except SnapshotError Unit}
    (h : save disk p interruption sets = (result, disk')) :
    (∃ e, result = .error e) ∧ disk' = disk ∨
      ∃ made, disk.makeDirectory p.parent = .ok made ∧
        ((∃ e, result = .error e) ∧ Disk.Spares [temporary p] made disk' ∨
          result = .ok () ∧ Disk.Spares [temporary p, p] made disk') := by
  obtain ⟨raw, hall, rfl⟩ := performAll_of_save h
  rcases Disk.performAll_cons_cases hall with
    ⟨e, rfl, written, rfl⟩ | ⟨e, rfl, rfl⟩ | ⟨made, rest, hmake, hrest⟩
  · exact .inl ⟨⟨_, rfl⟩, rfl⟩
  · exact .inl ⟨⟨_, rfl⟩, rfl⟩
  · refine .inr ⟨made, hmake, ?_⟩
    cases raw with
    | error fault =>
      have hsteps : (saveSteps p sets).tail = [.create (temporary p),
          .write (temporary p) (Bytes.ofText (text sets)), .sync (temporary p)] ++
            [.rename (temporary p) p] := rfl
      change made.performAll rest (saveSteps p sets).tail = _ at hrest
      rw [hsteps] at hrest
      exact .inl ⟨⟨_, rfl⟩, Disk.spares_of_performAll_error (by simp [Disk.Step.touches]) hrest⟩
    | ok done => exact .inr ⟨rfl, spares_of_performAll_ok (Disk.performAll_of_ok hrest)⟩

theorem spares_of_save_error {disk disk' : Disk} {p : Path}
    {interruption : Option Disk.Interruption} {sets : List RuleSet} {e : SnapshotError}
    (h : save disk p interruption sets = (.error e, disk')) :
    Disk.Spares [temporary p] disk disk' := by
  rcases save_cases h with ⟨-, rfl⟩ | ⟨made, hmake, ⟨-, hspares⟩ | ⟨hok, -⟩⟩
  · exact .refl _ _
  · exact (Disk.spares_makeDirectory hmake).trans hspares
  · cases hok

theorem spares_of_save {disk disk' : Disk} {p : Path} {interruption : Option Disk.Interruption}
    {sets : List RuleSet} {result : Except SnapshotError Unit}
    (h : save disk p interruption sets = (result, disk')) :
    Disk.Spares [temporary p, p] disk disk' := by
  rcases save_cases h with ⟨-, rfl⟩ | ⟨made, hmake, ⟨-, hspares⟩ | ⟨-, hspares⟩⟩
  · exact .refl _ _
  · exact (Disk.spares_makeDirectory hmake).trans (hspares.mono (by simp))
  · exact (Disk.spares_makeDirectory hmake).trans hspares

theorem sameFile_of_save_error {disk disk' : Disk} {p : Path}
    {interruption : Option Disk.Interruption} {sets : List RuleSet} {e : SnapshotError}
    (happart : (temporary p).plain ≠ p.plain)
    (h : save disk p interruption sets = (.error e, disk')) : Disk.SameFile p disk disk' :=
  Disk.sameFile_of_spares (spares_of_save_error h) fun _ hp =>
    List.forall_mem_singleton.2 fun ht => temporary_apart happart hp ht rfl

/-- Making the directory of the file brings no file to light. It may only if the path leads back out
of a directory that is missing. -/
def Settled (disk : Disk) (p : Path) : Prop :=
  ∀ made content, disk.makeDirectory p.parent = .ok made → made.read p = .ok content →
    disk.read p = .ok content

theorem settled_of_read {disk : Disk} {p : Path} {content : Bytes}
    (h : disk.read p = .ok content) : Settled disk p := by
  intro made content' hmake hread
  have hextends := (Disk.makeDirectory_eq_ok hmake).2
  have hstill : made.read p = .ok content := Disk.read_of_stands h fun place number held hl hn =>
    ⟨Disk.locate_of_keeps hextends.keeps hl, hextends _ _ hn⟩
  rw [← hread, hstill, h]

theorem settled_of_withParents {disk : Disk} {p : Path} (h : disk.WithParents p.parent) :
    Settled disk p := by
  intro made content hmake hread
  rw [Disk.makeDirectory_again h] at hmake
  cases hmake
  exact hread

theorem settled_of_save {disk disk' : Disk} {p : Path} {interruption : Option Disk.Interruption}
    {sets : List RuleSet} {result : Except SnapshotError Unit} (hsettled : Settled disk p)
    (h : save disk p interruption sets = (result, disk')) : Settled disk' p := by
  have hmade : ∀ {made}, disk.makeDirectory p.parent = .ok made →
      Disk.KeepsDirectories made disk' → Settled disk' p := fun hmake hkeeps =>
    settled_of_withParents (Disk.withParents_of_keeps hkeeps (Disk.makeDirectory_eq_ok hmake).1)
  rcases save_cases h with ⟨-, rfl⟩ | ⟨made, hmake, ⟨-, hspares⟩ | ⟨-, hspares⟩⟩
  · exact hsettled
  · exact hmade hmake hspares.keeps
  · exact hmade hmake hspares.keeps

/-- Behind a save that fails nothing is read that was not read before. -/
theorem read_before_of_save_error {disk disk' : Disk} {p : Path}
    {interruption : Option Disk.Interruption} {sets : List RuleSet} {e : SnapshotError}
    {content : Bytes} (happart : (temporary p).plain ≠ p.plain) (hsettled : Settled disk p)
    (h : save disk p interruption sets = (.error e, disk')) (hread : disk'.read p = .ok content) :
    disk.read p = .ok content := by
  rcases save_cases h with ⟨-, rfl⟩ | ⟨made, hmake, ⟨-, hspares⟩ | ⟨hok, -⟩⟩
  · exact hread
  · refine hsettled made content hmake ?_
    obtain ⟨number, hfind⟩ := Disk.read_eq_ok.1 hread
    obtain ⟨place, hl, hn⟩ := Disk.find_eq_ok.1 hfind
    have hbefore := Disk.locate_of_withParents (Disk.makeDirectory_eq_ok hmake).1 hspares.keeps
      (Disk.plain_of_read hread) hl
    have hfile := (hspares.file_iff (List.forall_mem_singleton.2 fun ht =>
      temporary_apart happart hl ht rfl)).1 hn
    exact Disk.read_eq_ok.2 ⟨number, Disk.find_eq_ok.2 ⟨place, hbefore, hfile⟩⟩
  · cases hok

end Snapshot

end Rulebook
