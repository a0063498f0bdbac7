import Mathlib.Data.List.Basic
import Rulebook.Proofs.Disk.Frame
/-!
Where paths lead. A path leads through directories, all of which stand; as long as they do, more of
them do not change where it leads, nor what is read there.
-/

set_option autoImplicit false

namespace Rulebook

namespace Path

theorem prefix_of_mem_above {p q : Path} (h : q ∈ above p) : q <+: p := by
  induction p generalizing q with
  | nil => cases h
  | cons name names ih =>
    rw [above] at h
    rcases List.mem_cons.1 h with rfl | h
    · exact List.nil_prefix
    · obtain ⟨rest, hrest, rfl⟩ := List.mem_map.1 h
      exact List.cons_prefix_cons.2 ⟨rfl, ih hrest⟩

theorem size_le_of_prefix {p q : Path} (h : q <+: p) : q.size ≤ p.size := by
  obtain ⟨rest, rfl⟩ := h
  rw [size, size, List.foldl_append]
  generalize q.foldl (fun n name => n + name.utf8ByteSize + 1) 0 = n
  induction rest generalizing n with
  | nil => exact Nat.le_refl _
  | cons name rest ih =>
    rw [List.foldl_cons]
    exact Nat.le_trans (by omega) (ih _)

end Path

namespace Disk

theorem locateFrom_cons {d : Disk} {names : List String} {name : String} {place q : Path} :
    d.locateFrom place (name :: names) = .ok q ↔
      d.node place = some .directory ∧
        ∃ next, enter place name = .ok next ∧ d.locateFrom next names = .ok q := by
  rw [locateFrom]
  cases hn : d.node place with
  | none => simp
  | some n =>
    cases n with
    | directory => cases enter place name <;> simp
    | file number content => simp
    | full => simp

theorem locateFrom_append {d : Disk} {names rest : List String} {place q : Path} :
    d.locateFrom place (names ++ rest) = .ok q ↔
      ∃ base, d.locateFrom place names = .ok base ∧ d.locateFrom base rest = .ok q := by
  induction names generalizing place with
  | nil => simp only [List.nil_append, locateFrom, Except.ok.injEq, exists_eq_left']
  | cons name names ih =>
    simp only [List.cons_append, locateFrom_cons, ih]
    constructor
    · rintro ⟨hdir, next, henter, base, hbase, hrest⟩
      exact ⟨base, ⟨hdir, next, henter, hbase⟩, hrest⟩
    · rintro ⟨base, ⟨hdir, next, henter, hbase⟩, hrest⟩
      exact ⟨hdir, next, henter, base, hbase, hrest⟩

theorem locateFrom_concat {d : Disk} {names : List String} {name : String} {place q : Path} :
    d.locateFrom place (names ++ [name]) = .ok q ↔
      ∃ base, d.locateFrom place names = .ok base ∧ d.node base = some .directory ∧
        enter base name = .ok q := by
  simp only [locateFrom_append, locateFrom_cons]
  simp only [locateFrom, Except.ok.injEq, exists_eq_right]

/-- No name and no path is too long, no character is zero, and all names on the way lead on. -/
theorem locate_eq_ok {d : Disk} {p q : Path} :
    d.locate p = .ok q ↔ (p.any fun name => name.toList.contains '\x00') = false ∧
      p.size ≤ pathLimit ∧ d.locateFrom [] p = .ok q := by
  unfold locate
  cases p.any fun name => name.toList.contains '\x00' with
  | true => simp
  | false =>
    by_cases hlong : pathLimit < p.size
    · simp [hlong, Nat.not_le.2 hlong]
    · simp [hlong, Nat.not_lt.1 hlong]

theorem locateFrom_of_locate {d : Disk} {p q : Path} (h : d.locate p = .ok q) :
    d.locateFrom [] p = .ok q := (locate_eq_ok.1 h).2.2

theorem locateFrom_plain {d : Disk} {p q : Path} (h : d.locateFrom [] p = .ok q) :
    d.locateFrom [] p.plain = .ok q := by
  unfold Path.plain
  split
  · rename_i hmark
    have hp : p = p.dropLast ++ ["."] := (List.dropLast_append_getLast? _ hmark).symm
    rw [hp] at h
    obtain ⟨base, hbase, -, henter⟩ := locateFrom_concat.1 h
    cases henter
    exact hbase
  · exact h

theorem enter_name {base place : Path} {name : String}
    (hname : name ≠ "" ∧ name ≠ "." ∧ name ≠ "..")
    (h : enter base name = .ok place) : place = base ++ [name] := by
  simp only [enter, hname.1, hname.2.1, hname.2.2, if_false] at h
  split at h
  · cases h
  · cases h
    rfl

theorem getLast?_of_locate {d : Disk} {p place : Path} {name : String} (h : d.locate p = .ok place)
    (hp : p.getLast? = some name) (hname : name ≠ "" ∧ name ≠ "." ∧ name ≠ "..") :
    place.getLast? = some name := by
  have hfrom := locateFrom_of_locate h
  rw [← List.dropLast_append_getLast? _ hp] at hfrom
  obtain ⟨base, -, -, henter⟩ := locateFrom_concat.1 hfrom
  rw [enter_name hname henter, List.getLast?_concat]

/-- Two paths that lead to one place on no disk. -/
def Apart (p q : Path) : Prop :=
  ∀ (d : Disk) (place : Path), d.locate p = .ok place → d.locate q ≠ .ok place

theorem apart_of_getLast? {p q : Path} {name other : String} (hp : p.getLast? = some name)
    (hq : q.getLast? = some other) (hname : name ≠ "" ∧ name ≠ "." ∧ name ≠ "..")
    (hother : other ≠ "" ∧ other ≠ "." ∧ other ≠ "..") (hne : name ≠ other) : Apart p q := by
  intro d place hplace hplace'
  have hlast := getLast?_of_locate hplace hp hname
  rw [getLast?_of_locate hplace' hq hother] at hlast
  exact hne (Option.some.inj hlast).symm

/-- A path leads where it led, and only a file that was there before is there. -/
structure SameFile (p : Path) (d d' : Disk) : Prop where
  leads : ∀ place, d.locate p = .ok place → d'.locate p = .ok place
  holds : ∀ place, d'.locate p = .ok place → ∀ number content,
    d'.node place = some (.file number content) ↔ d.node place = some (.file number content)

theorem SameFile.refl (p : Path) (d : Disk) : SameFile p d d :=
  ⟨fun _ h => h, fun _ _ _ _ => Iff.rfl⟩

theorem sameFile_of_spares {ps : List Path} {p : Path} {d d' : Disk} (h : Spares ps d d')
    (hp : ∀ place, d'.locate p = .ok place → ∀ q ∈ ps, d'.locate q ≠ .ok place) :
    SameFile p d d' :=
  ⟨fun _ => locate_of_keeps h.keeps, fun place hplace _ _ => h.file_iff (hp place hplace)⟩

theorem file?_eq_some {d : Disk} {p : Path} {content : Bytes} :
    d.file? p = some content ↔
      ∃ place number, d.locate p = .ok place ∧ d.node place = some (.file number content) := by
  have hfind : d.file? p = some content ↔ ∃ number, d.find p = .ok (.file number content) := by
    unfold file?
    split
    · rename_i number held hfile
      simp [hfile]
    · rename_i hother
      exact iff_of_false (by simp) fun ⟨number, hfile⟩ => hother number content hfile
  simp only [hfind, find_eq_ok]
  exact exists_comm

theorem SameFile.file? {p place : Path} {d d' : Disk} (h : SameFile p d d')
    (hp : d.locate p = .ok place) : d'.file? p = d.file? p := by
  refine Option.ext fun content => ?_
  rw [file?_eq_some, file?_eq_some]
  simp only [h.leads place hp, hp, Except.ok.injEq, exists_and_left, exists_eq_left']
  exact exists_congr fun number => h.holds place (h.leads place hp) number content

/-- What is read is still read if its file still stands there. -/
theorem read_of_stands {d d' : Disk} {p : Path} {content : Bytes} (hread : d.read p = .ok content)
    (hfile : ∀ place number content, d.locate p = .ok place →
      d.node place = some (.file number content) →
        d'.locate p = .ok place ∧ d'.node place = some (.file number content)) :
    d'.read p = .ok content := by
  obtain ⟨number, hfind⟩ := read_eq_ok.1 hread
  obtain ⟨place, hl, hn⟩ := find_eq_ok.1 hfind
  exact read_eq_ok.2 ⟨number, find_eq_ok.2 ⟨place, hfile place number content hl hn⟩⟩

theorem readText_eq_ok {d : Disk} {p : Path} {text : String} :
    d.readText p = .ok text ↔ ∃ content, d.read p = .ok content ∧ Bytes.text? content = some text := by
  unfold readText
  cases d.read p with
  | error e => simp
  | ok content => cases htext : Bytes.text? content <;> simp [htext]

theorem readText_of_stands {d d' : Disk} {p : Path} {text : String} (hread : d.readText p = .ok text)
    (hfile : ∀ place number content, d.locate p = .ok place →
      d.node place = some (.file number content) →
        d'.locate p = .ok place ∧ d'.node place = some (.file number content)) :
    d'.readText p = .ok text := by
  obtain ⟨content, hcontent, htext⟩ := readText_eq_ok.1 hread
  exact readText_eq_ok.2 ⟨content, read_of_stands hcontent hfile, htext⟩

theorem SameFile.stands {d d' : Disk} {p place : Path} (h : SameFile p d d') {number : Nat}
    {content : Bytes} (hl : d.locate p = .ok place)
    (hn : d.node place = some (.file number content)) :
    d'.locate p = .ok place ∧ d'.node place = some (.file number content) :=
  ⟨h.leads place hl, (h.holds place (h.leads place hl) number content).2 hn⟩

theorem SameFile.read {d d' : Disk} {p : Path} {content : Bytes} (h : SameFile p d d')
    (hread : d.read p = .ok content) : d'.read p = .ok content :=
  read_of_stands hread fun _ _ _ => h.stands

theorem SameFile.readText {d d' : Disk} {p : Path} {text : String} (h : SameFile p d d')
    (hread : d.readText p = .ok text) : d'.readText p = .ok text :=
  readText_of_stands hread fun _ _ _ => h.stands

theorem plain_of_read {d : Disk} {p : Path} {content : Bytes} (h : d.read p = .ok content) :
    p.plain = p := by
  obtain ⟨number, hfind⟩ := read_eq_ok.1 h
  obtain ⟨place, hl, hn⟩ := find_eq_ok.1 hfind
  refine if_neg fun hmark => ?_
  have hfrom := locateFrom_of_locate hl
  rw [← List.dropLast_append_getLast? _ hmark] at hfrom
  obtain ⟨base, -, hdir, henter⟩ := locateFrom_concat.1 hfrom
  cases henter
  rw [hdir] at hn
  cases hn

/-- If the directory stands, more directories do not change where a path in it leads. -/
theorem locate_of_withParents {d d' : Disk} {p place : Path} (hparents : d.WithParents p.parent)
    (hkeeps : KeepsDirectories d d') (hplain : p.plain = p) (h : d'.locate p = .ok place) :
    d.locate p = .ok place := by
  obtain ⟨hzero, hsize, hfrom⟩ := locate_eq_ok.1 h
  refine locate_eq_ok.2 ⟨hzero, hsize, ?_⟩
  rw [Path.parent, hplain] at hparents
  rcases List.eq_nil_or_concat' p with rfl | ⟨above, name, rfl⟩
  · exact hfrom
  · rw [List.dropLast_concat] at hparents
    obtain ⟨base, hbase, hdir⟩ := find_eq_ok.1 (hparents above (by simp))
    obtain ⟨base', hbase', -, henter⟩ := locateFrom_concat.1 hfrom
    have hsame := locateFrom_of_locate (locate_of_keeps hkeeps hbase)
    rw [hbase'] at hsame
    cases hsame
    exact locateFrom_concat.2 ⟨base, locateFrom_of_locate hbase, hdir, henter⟩

variable {d d' : Disk} {p place : Path}

def Founded (d : Disk) (place : Path) : Prop :=
  ∀ a, a <+: place.dropLast → d.node a = some .directory

theorem Founded.enter {name : String} {next : Path} (h : d.Founded place)
    (hdir : d.node place = some .directory) (henter : enter place name = .ok next) :
    d.Founded next := by
  unfold Disk.enter at henter
  split at henter
  · cases henter
  · split at henter
    · cases henter
      exact h
    · split at henter
      · cases henter
        exact fun a ha => h a (ha.trans (List.dropLast_prefix _))
      · split at henter
        · cases henter
        · cases henter
          intro a ha
          rw [List.dropLast_concat] at ha
          rcases List.eq_nil_or_concat' place with rfl | ⟨above, last, rfl⟩
          · rwa [List.prefix_nil.1 ha]
          · rcases List.prefix_concat_iff.1 ha with rfl | habove
            · exact hdir
            · exact h a (by rwa [List.dropLast_concat])

theorem Founded.locateFrom {names : List String} {q : Path} (h : d.Founded place)
    (hq : d.locateFrom place names = .ok q) : d.Founded q := by
  induction names generalizing place with
  | nil =>
    cases hq
    exact h
  | cons name names ih =>
    obtain ⟨hdir, next, henter, hnext⟩ := locateFrom_cons.1 hq
    exact ih (h.enter hdir henter) hnext

theorem directory_of_locate (hroot : d.node [] = some .directory)
    (hname : ∀ name, p.plain.getLast? = some name → name = "" ∨ name = "..")
    (h : d.locate p = .ok place) : d.node place = some .directory := by
  have hp := locateFrom_plain (locateFrom_of_locate h)
  rcases List.eq_nil_or_concat' p.plain with hnil | ⟨above, last, hlast⟩
  · rw [hnil] at hp
    cases hp
    exact hroot
  · rw [hlast] at hp
    obtain ⟨base, hbase, hdir, henter⟩ := locateFrom_concat.1 hp
    rcases hname last (by rw [hlast, List.getLast?_concat]) with rfl | rfl
    · cases henter
    · cases henter
      have hfounded : d.Founded base := Founded.locateFrom (fun a ha => by
        rwa [List.prefix_nil.1 ha]) hbase
      exact hfounded _ (List.prefix_refl _)

theorem find_of_prefix {q : Path} {name : String} {rest : List String} (hp : p = q ++ name :: rest)
    (h : d.locate p = .ok place) : d.find q = .ok .directory := by
  have habove : q <+: p := ⟨_, hp.symm⟩
  obtain ⟨base, hbase, hrest⟩ := locateFrom_append.1 (hp ▸ locateFrom_of_locate h)
  obtain ⟨hzero, hsize, -⟩ := locate_eq_ok.1 h
  have hle := Path.size_le_of_prefix habove
  refine find_eq_ok.2 ⟨base, locate_eq_ok.2 ⟨?_, by omega, hbase⟩, (locateFrom_cons.1 hrest).1⟩
  rw [List.any_eq_false] at hzero ⊢
  exact fun name hname => hzero name (habove.subset hname)

theorem withParents_of_locate (h : d.locate p = .ok place) (hp : p ≠ []) :
    d.WithParents p.dropLast := by
  intro q hq
  have habove : q <+: p.dropLast := by
    rcases List.mem_append.1 hq with hq | hq
    · exact Path.prefix_of_mem_above hq
    · exact List.mem_singleton.1 hq ▸ List.prefix_refl _
  obtain ⟨rest, hrest⟩ := habove
  have hlast := (List.dropLast_append_getLast hp).symm
  rw [← hrest, List.append_assoc] at hlast
  cases rest with
  | nil => exact find_of_prefix hlast h
  | cons name rest => exact find_of_prefix hlast h

end Disk

end Rulebook
