import Rulebook.Snapshot
import Rulebook.Proofs.Disk
import Rulebook.Proofs.Lines
import Rulebook.Proofs.Registry
/-!
Snapshots of a registry: what is saved is what is loaded, in the order of the registry. The text
does not depend on the order in which the rule sets are handed over.
-/

set_option autoImplicit false

namespace Rulebook

namespace Snapshot

variable {g : Registry}

theorem toJson_of_perm (h : g.Keyed) {sets : List RuleSet} (hp : sets.Perm g.table.values) :
    toJson sets = .fields [("rulesets", .fields (g.table.values.map fun s =>
      (s.id, s.toDefinition.toJson)))] := by
  rw [toJson, table, h.entries_ofList hp, List.map_map]
  rfl

theorem text_of_perm (h : g.Keyed) {sets : List RuleSet} (hp : sets.Perm g.table.values) :
    text sets = text g.list := by
  rw [text, text, toJson_of_perm h hp, toJson_of_perm h g.list_perm]

theorem toJson_fits (h : g.Sound) : Json.Fits Json.depthLimit (toJson g.list) := by
  have hentries : Json.Fits 126 (.fields (g.table.values.map fun s =>
      (s.id, s.toDefinition.toJson))) := by
    refine .fields fun e he => ?_
    obtain ⟨s, -, rfl⟩ := List.mem_map.1 he
    exact s.toDefinition_fits 120
  rw [toJson_of_perm h.keyed g.list_perm]
  exact .fields (by simp [hentries])

theorem earlier_written (s t : RuleSet) :
    Registry.earlier s t = earlier s.toDefinition.written t.toDefinition.written := rfl

def tableOfJson? (j : Json) : Option (Table Definition) := do
  match ← j.structure? ["rulesets"] with
  | [entries] => pure (.ofList (← Json.withDefault? [] entriesOfJson? entries))
  | _ => none

def table? (s : String) : Option (Table Definition) := (Json.read? s).bind tableOfJson?

theorem ofJson?_eq (j : Json) :
    ofJson? j = (tableOfJson? j).map fun t => t.values.mergeSort earlier := by
  unfold ofJson? tableOfJson?
  cases j.structure? ["rulesets"] with
  | none => rfl
  | some parts =>
    match parts with
    | [] => rfl
    | [entries] =>
      simp only [Option.bind_eq_bind, Option.bind_some]
      cases Json.withDefault? [] entriesOfJson? entries <;> rfl
    | _ :: _ :: _ => rfl

theorem read?_eq (s : String) : read? s = (table? s).map fun t => t.values.mergeSort earlier := by
  rw [read?, table?, Option.map_bind]
  exact congrArg _ (funext ofJson?_eq)

theorem tableOfJson?_toJson (h : g.Sound) :
    tableOfJson? (toJson g.list) =
      some (.ofList (g.table.values.map fun s => (s.id, s.toDefinition.written))) := by
  have hentries : entriesOfJson? (.fields (g.table.values.map fun s =>
      (s.id, s.toDefinition.toJson))) =
      some (g.table.values.map fun s => (s.id, s.toDefinition.written)) := by
    refine Json.mapM_map fun s hs => ?_
    have hread := (h.mem_list (g.list_perm.mem_iff.2 hs)).ofJson?
    simp [hread]
  have hfields : (toJson g.list).structure? ["rulesets"] =
      some [some (.fields (g.table.values.map fun s => (s.id, s.toDefinition.toJson)))] := by
    rw [toJson_of_perm h.keyed g.list_perm]
    rfl
  simp only [tableOfJson?, hfields, Json.withDefault?, hentries, Option.bind_eq_bind,
    Option.bind_some, Option.pure_def]

/-- The definitions of a snapshot come in the order of the registry. -/
theorem ofJson?_toJson (h : g.Sound) :
    ofJson? (toJson g.list) = some (g.list.map fun s => s.toDefinition.written) := by
  have hvalues : (Table.ofList (g.table.values.map fun s =>
      (s.id, s.toDefinition.written))).values =
      g.table.values.map fun s => s.toDefinition.written := by
    rw [Table.values, Table.entries_ofList (h.keyed.increasing _), List.map_map]
    rfl
  have hsort : (g.table.values.map fun s => s.toDefinition.written).mergeSort earlier =
      g.list.map fun s => s.toDefinition.written :=
    (List.map_mergeSort fun s _ t _ => earlier_written s t).symm
  rw [ofJson?_eq, tableOfJson?_toJson h, Option.map_some, hvalues, hsort]

/-- In the text of a registry each rule set stands under its identifier. -/
theorem table?_text (h : g.Sound) :
    ∃ t, table? (text g.list) = some t ∧
      ∀ id, t.get? id = (g.get? id).map fun s => s.toDefinition.written := by
  have htable : table? (text g.list) = tableOfJson? (toJson g.list) := by
    rw [table?, text, Json.read?_pretty (toJson_fits h), Option.bind_some]
  refine ⟨_, htable.trans (tableOfJson?_toJson h), fun id => ?_⟩
  rw [Table.get?, Table.entries_ofList (h.keyed.increasing _), h.keyed.entries_eq,
    Entries.lookup_map fun s : RuleSet => s.toDefinition.written]
  rfl

theorem read?_text (h : g.Sound) :
    read? (text g.list) = some (g.list.map fun s => s.toDefinition.written) := by
  rw [read?, text, Json.read?_pretty (toJson_fits h), Option.bind_some, ofJson?_toJson h]

theorem ofText_text (sets : List RuleSet) :
    ∃ rest, Bytes.ofText (text sets) = 123 :: Bytes.lineEnd :: rest := by
  have hchars : ∃ rest, (text sets).toList = '{' :: '\n' :: rest :=
    ⟨_, by rw [text, Json.pretty, String.toList_ofList]; rfl⟩
  obtain ⟨rest, hrest⟩ := hchars
  have hbrace : String.utf8EncodeChar '{' = [123] := by decide
  have hline : String.utf8EncodeChar '\n' = [Bytes.lineEnd] := by decide
  rw [Bytes.ofText_eq_flatMap, hrest, List.flatMap_cons, List.flatMap_cons, hbrace, hline]
  exact ⟨_, rfl⟩

theorem text_not_empty (sets : List RuleSet) : (Bytes.ofText (text sets)).isEmpty = false := by
  obtain ⟨rest, hrest⟩ := ofText_text sets
  rw [hrest]
  rfl

theorem read_of_save {disk disk' : Disk} {p : Path} {sets : List RuleSet}
    (h : save disk p none sets = (.ok (), disk')) :
    disk'.read p = .ok (Bytes.ofText (text sets)) := by
  have hall : disk.performAll none (saveSteps p sets) = (.ok (), disk') := by
    unfold save at h
    split at h
    · simp_all
    · cases h
  obtain ⟨made, -, hall⟩ := Disk.performAll_cons.1 hall
  obtain ⟨created, -, hall⟩ := Disk.performAll_cons.1 hall
  obtain ⟨written, hwrite, hall⟩ := Disk.performAll_cons.1 hall
  obtain ⟨synced, hsync, hall⟩ := Disk.performAll_cons.1 hall
  obtain ⟨renamed, hrename, hend⟩ := Disk.performAll_cons.1 hall
  -- Only the write and the rename decide what the path holds; syncing leaves the disk as it is.
  cases hsync
  cases hend
  exact Disk.read_of_rename hrename (Disk.read_of_setContent hwrite (text_not_empty sets))

theorem readText_of_save {disk disk' : Disk} {p : Path} {sets : List RuleSet}
    (h : save disk p none sets = (.ok (), disk')) : disk'.readText p = .ok (text sets) := by
  rw [Disk.readText, read_of_save h]
  simp only [Bytes.text?_ofText]

theorem load_of_readText (h : g.Sound) {disk : Disk} {p : Path}
    (hr : disk.readText p = .ok (text g.list)) :
    load disk p = .ok (g.list.map fun s => s.toDefinition.written) := by
  rw [load, hr]
  simp only [read?_text h]

end Snapshot

end Rulebook
