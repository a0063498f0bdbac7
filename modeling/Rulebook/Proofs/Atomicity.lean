import Rulebook.Proofs.Saving
/-!
What a save that is broken off leaves in the snapshot file. Main statement: the file holds what it
held or the whole new text, if its name is not one that a temporary file gets; a file with such a
name is its own temporary file, and a save that is broken off leaves any beginning of the new text.
-/

set_option autoImplicit false

namespace Rulebook

namespace Path

theorem stem_append {base extension : String} (hbase : base ≠ "")
    (hdot : ∀ c ∈ extension.toList, c ≠ '.') : stem (base ++ "." ++ extension) = base := by
  have hlist : (base ++ "." ++ extension).toList = base.toList ++ '.' :: extension.toList := by
    simp
  have hlast : ((base.toList ++ '.' :: extension.toList).reverse.takeWhile (· != '.')).length =
      extension.toList.length := by
    have hrev : ∀ c ∈ extension.toList.reverse, (c != '.') = true := fun c hc => by
      simpa using hdot c (List.mem_reverse.1 hc)
    rw [List.reverse_append, List.reverse_cons, List.append_assoc,
      List.takeWhile_append_of_pos hrev]
    simp
  have hpos : 0 < base.toList.length := List.length_pos_iff.2 (by simpa using hbase)
  have htake : (base.toList ++ '.' :: extension.toList).take ((base.toList ++ '.' ::
      extension.toList).length - extension.toList.length - 1) = base.toList := by
    rw [List.length_append, List.length_cons]
    simp [show base.toList.length + (extension.toList.length + 1) - extension.toList.length - 1 =
      base.toList.length by omega]
  rw [stem, hlist]
  simp only [hlast]
  rw [if_pos (by rw [List.length_append, List.length_cons]; omega), htake, String.ofList_toList]

theorem stem_not_empty {name : String} (hname : name ≠ "") : stem name ≠ "" := by
  simp only [stem]
  split
  · rename_i hlast
    intro hempty
    have htake := congrArg String.toList hempty
    rw [String.toList_ofList, String.toList_empty, List.take_eq_nil_iff] at htake
    rcases htake with hzero | hnil
    · omega
    · exact hname (by simpa using hnil)
  · exact hname

/-- The name has the extension of a temporary file, and something in front of it. -/
def IsTemporary (p : Path) : Prop :=
  ∃ base, base ≠ "" ∧ p.plain.getLast? = some (base ++ "." ++ "tmp")

end Path

namespace Disk

variable {d d' : Disk} {p place : Path}

theorem create_ne_ok (hname : ∀ place, d.locate p = .ok place → d.node place = some .directory)
    (created : Disk) : d.create p ≠ .ok created := by
  intro h
  obtain ⟨⟨handle, opened⟩, hopen, -⟩ := bind_eq_ok.1 h
  unfold openFile at hopen
  split at hopen
  · cases hopen
  · rename_i place hl
    simp [hname place hl] at hopen

theorem setContent_of_file {number : Nat} {old : Bytes} (content : Bytes)
    (h : d.locate p = .ok place ∧ d.node place = some (.file number old)) :
    ∃ d', d.setContent p content = .ok d' ∧
      d'.locate p = .ok place ∧ d'.node place = some (.file number content) := by
  obtain ⟨hl, hn⟩ := h
  have hkeeps := keepsDirectories_put (some (.file number content))
    (show d.node place ≠ some .directory by simp [hn])
  refine ⟨d.put place (some (.file number content)), ?_, locate_of_keeps hkeeps hl, ?_⟩
  · simp only [setContent, hl, hn]
  · rw [node_put, if_pos rfl]

theorem create_of_file {number : Nat} {old : Bytes}
    (h : d.locate p = .ok place ∧ d.node place = some (.file number old)) :
    ∃ d', d.create p = .ok d' ∧
      d'.locate p = .ok place ∧ d'.node place = some (.file number []) := by
  have hopen : d.openFile p = .ok (⟨place, .file number old⟩, d) := by
    simp only [openFile, h.1, h.2]
  obtain ⟨d', hset, hd'⟩ := setContent_of_file [] h
  exact ⟨d', bind_eq_ok.2 ⟨_, hopen, hset⟩, hd'⟩

theorem performAll_cons_of_ok {s : Step} {ss : List Step} {k written : Nat}
    (h : d.perform s = .ok d') :
    d.performAll (some ⟨k + 1, written⟩) (s :: ss) = d'.performAll (some ⟨k, written⟩) ss := by
  rw [performAll, h]

end Disk

namespace Snapshot

variable {disk disk' : Disk} {p : Path} {interruption : Option Disk.Interruption}
  {sets : List RuleSet}

/-- The file under this path is as it was, or it holds the text of these rule sets. -/
def Intact (p : Path) (sets : List RuleSet) (disk disk' : Disk) : Prop :=
  Disk.SameFile p disk disk' ∨ disk'.read p = .ok (Bytes.ofText (text sets))

theorem temporary_of_isTemporary (hp : p.IsTemporary) : temporary p = p.plain := by
  obtain ⟨base, hbase, hlast⟩ := hp
  have hname : ¬ (base ++ "." ++ "tmp" = "" ∨ base ++ "." ++ "tmp" = "..") :=
    not_or.2 ⟨(temporaryName_ne base).1, (temporaryName_ne base).2.2⟩
  rw [temporary_of_name hlast hname, Path.stem_append hbase (by simp)]
  exact List.dropLast_append_getLast? _ hlast

theorem temporary_apart_of_name {name : String} (hp : ¬ p.IsTemporary)
    (hlast : p.plain.getLast? = some name) (hname : ¬ (name = "" ∨ name = "..")) :
    (temporary p).plain ≠ p.plain := by
  rw [temporary_of_name hlast hname, plain_temporaryName]
  intro hsame
  refine hp ⟨Path.stem name, Path.stem_not_empty fun hempty => hname (.inl hempty), ?_⟩
  rw [← hsame, List.getLast?_concat]

/-- A save to a path with no name for a file ends before it has written anything. -/
theorem sameFile_of_save_unnamed (hroot : disk.node [] = some .directory)
    (hname : ∀ name, p.plain.getLast? = some name → name = "" ∨ name = "..")
    {result : Except SnapshotError Unit} (h : save disk p interruption sets = (result, disk')) :
    Disk.SameFile p disk disk' := by
  have hnothing : Disk.Spares [] disk disk' := by
    obtain ⟨raw, hall, -⟩ := performAll_of_save h
    rcases Disk.performAll_cons_cases hall with
      ⟨_, -, written, rfl⟩ | ⟨_, -, rfl⟩ | ⟨made, rest, hmake, hall⟩
    · exact .refl [] _
    · exact .refl [] _
    · have hmade : Disk.Spares [] disk made := Disk.spares_makeDirectory hmake
      rcases Disk.performAll_cons_cases hall with
        ⟨_, -, written, rfl⟩ | ⟨_, -, rfl⟩ | ⟨created, rest, hcreate, -⟩
      · exact hmade
      · exact hmade
      · rw [temporary_of_unnamed hname] at hcreate
        exact absurd hcreate (Disk.create_ne_ok (fun place =>
          Disk.directory_of_locate (hmade.keeps _ hroot) hname) created)
  exact Disk.sameFile_of_spares hnothing fun _ _ => List.forall_mem_nil _

theorem intact_of_save (hroot : disk.node [] = some .directory) (hp : ¬ p.IsTemporary)
    {result : Except SnapshotError Unit} (h : save disk p interruption sets = (result, disk')) :
    Intact p sets disk disk' := by
  by_cases hunnamed : ∀ name, p.plain.getLast? = some name → name = "" ∨ name = ".."
  · exact .inl (sameFile_of_save_unnamed hroot hunnamed h)
  · push Not at hunnamed
    obtain ⟨name, hlast, hempty, hback⟩ := hunnamed
    cases result with
    | ok done => exact .inr (read_of_save (save_of_ok h))
    | error e =>
      have happart := temporary_apart_of_name hp hlast (not_or.2 ⟨hempty, hback⟩)
      exact .inl (sameFile_of_save_error happart h)

/-- A file that is its own temporary file has lost its content when the new text is begun. -/
theorem read_of_save_cut {old : Bytes} (hp : p.IsTemporary) (hold : disk.read p = .ok old)
    (sets : List RuleSet) (written : Nat) :
    (save disk p (some ⟨2, written⟩) sets).2.read p =
      .ok ((Bytes.ofText (text sets)).take written) := by
  obtain ⟨number, hfind⟩ := Disk.read_eq_ok.1 hold
  obtain ⟨place, hl, hn⟩ := Disk.find_eq_ok.1 hfind
  have hplain := Disk.plain_of_read hold
  have htemporary : temporary p = p := (temporary_of_isTemporary hp).trans hplain
  have hne : p ≠ [] := by
    rintro rfl
    obtain ⟨base, -, hlast⟩ := hp
    cases hlast
  have hmake : disk.perform (.makeDirectory p.parent) = .ok disk := by
    rw [Path.parent, hplain]
    exact Disk.makeDirectory_again (Disk.withParents_of_locate hl hne)
  obtain ⟨created, hcreate, hcreated⟩ := Disk.create_of_file ⟨hl, hn⟩
  have hstep : disk.perform (.create p) = .ok created := hcreate
  obtain ⟨cut, hcut, hlcut, hncut⟩ :=
    Disk.setContent_of_file ((Bytes.ofText (text sets)).take written) hcreated
  have hsave : (save disk p (some ⟨2, written⟩) sets).2 = cut := by
    have hall : disk.performAll (some ⟨2, written⟩) (saveSteps p sets) =
        (.error .interrupted, cut) := by
      rw [saveSteps, htemporary, Disk.performAll_cons_of_ok hmake, Disk.performAll_cons_of_ok hstep]
      change (_, (created.setContent p _).toOption.getD created) = _
      rw [hcut]
      rfl
    rw [save, hall]
  rw [hsave]
  exact Disk.read_eq_ok.2 ⟨number, Disk.find_eq_ok.2 ⟨place, hlcut, hncut⟩⟩

theorem exists_cut (old : Bytes) (sets : List RuleSet) :
    ∃ written, (Bytes.ofText (text sets)).take written ≠ old ∧
      (Bytes.ofText (text sets)).take written ≠ Bytes.ofText (text sets) := by
  obtain ⟨rest, hrest⟩ := ofText_text sets
  rw [hrest]
  cases old with
  | nil => exact ⟨1, by simp, by simp⟩
  | cons b bs => exact ⟨0, by simp, by simp⟩

/-- A save leaves the file as it was or with the whole new text, whatever becomes of it, if the name
is not one for a temporary file. With such a name it may leave any beginning of the new text, in
place of what the file held. -/
theorem save_atomic_by_name (hroot : disk.node [] = some .directory) :
    (¬ p.IsTemporary → ∀ interruption sets,
      Intact p sets disk (save disk p interruption sets).2) ∧
    (p.IsTemporary → ∀ old, disk.read p = .ok old →
      (∀ sets written, (save disk p (some ⟨2, written⟩) sets).2.read p =
        .ok ((Bytes.ofText (text sets)).take written)) ∧
      ∀ sets, ∃ interruption, ¬ Intact p sets disk (save disk p interruption sets).2) := by
  refine ⟨fun hp interruption sets => intact_of_save hroot hp rfl, fun hp old hold =>
    ⟨fun sets written => read_of_save_cut hp hold sets written, fun sets => ?_⟩⟩
  obtain ⟨written, hold', hnew⟩ := exists_cut old sets
  refine ⟨some ⟨2, written⟩, fun hintact => ?_⟩
  have hcut := read_of_save_cut hp hold sets written
  rcases hintact with hsame | hwhole
  · rw [hsame.read hold] at hcut
    exact hold' (Except.ok.inj hcut).symm
  · rw [hwhole] at hcut
    exact hnew (Except.ok.inj hcut).symm

def heldInTemporary : Disk :=
  Disk.empty.put ["rulesets.tmp"] (some (.file 0 (Bytes.ofText "{}")))

theorem save_atomic_by_name_emptied :
    heldInTemporary.node [] = some .directory ∧ Path.IsTemporary ["rulesets.tmp"] ∧
      heldInTemporary.read ["rulesets.tmp"] = .ok (Bytes.ofText "{}") ∧
      ∀ sets, (save heldInTemporary ["rulesets.tmp"] (some ⟨2, 0⟩) sets).2.read ["rulesets.tmp"] =
        .ok [] := by
  have hroot : heldInTemporary.node [] = some .directory := rfl
  have htemporary : Path.IsTemporary ["rulesets.tmp"] := ⟨"rulesets", by decide, by decide⟩
  have hheld : heldInTemporary.read ["rulesets.tmp"] = .ok (Bytes.ofText "{}") := rfl
  refine ⟨hroot, htemporary, hheld, fun sets => ?_⟩
  exact ((save_atomic_by_name hroot).2 htemporary _ hheld).1 sets 0

end Snapshot

end Rulebook
