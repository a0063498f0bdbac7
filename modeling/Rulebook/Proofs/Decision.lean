import Rulebook.Decision
import Rulebook.Proofs.Instant
import Rulebook.Proofs.Json.Fields
import Rulebook.Proofs.Table
import Rulebook.Proofs.Value
/-!
Decisions read back. A decision is decoded from its text as the decision it was, its record with the
same entries under the same names; a number that is not finite has left its field without a value.
-/

set_option autoImplicit false

namespace Rulebook

namespace Record

theorem leaves_toJson (v : Value) (path : String) : leaves path v.toJson = [(path, v.written)] := by
  cases v with
  | number x =>
    by_cases h : x.isFinite = true <;>
      simp [Value.toJson, Value.written, Value.isFinite, h, leaves, Json.Number.toFloat]
  | text s => rfl
  | boolean b => rfl
  | absent => rfl

def isFinite (r : Record) : Bool := r.entries.all (·.2.isFinite)

def written (r : Record) : Record := .ofList (r.entries.map fun e => (e.1, e.2.written))

theorem written_of_isFinite {r : Record} (h : r.isFinite = true) : r.written = r := by
  have hentries : (r.entries.map fun e => (e.1, e.2.written)) = r.entries := by
    refine (List.map_congr_left fun e he => ?_).trans (List.map_id _)
    have hfinite : e.2.isFinite = true := List.all_eq_true.1 h e he
    rw [Value.written, if_pos hfinite]
    rfl
  rw [written, hentries, ofList, entries, Table.ofList_entries]

theorem toJson_fits (r : Record) (room : Nat) : Json.Fits (room + 1) r.toJson := by
  refine .fields fun e he => ?_
  obtain ⟨⟨k, v⟩, -, rfl⟩ := List.mem_map.1 he
  exact v.toJson_fits room

theorem fieldValues?_increasing {es : List (String × Value)} (h : Entries.Increasing es) :
    Json.fieldValues? (es.map fun e => (e.1, e.2.toJson)) =
      some (es.map fun e => (e.1, e.2.toJson)) := by
  induction es with
  | nil => rfl
  | cons e es ih =>
    obtain ⟨hk, hes⟩ := List.pairwise_cons.1 h
    have hnone : (es.map fun e => (e.1, e.2.toJson)).lookup e.1 = none := by
      refine List.lookup_eq_none_iff.2 fun f hf => ?_
      obtain ⟨e', he', rfl⟩ := List.mem_map.1 hf
      have hlt := hk e'.1 (List.mem_map_of_mem he')
      simpa using fun heq : e.1 = e'.1 => String.lt_irrefl _ (heq ▸ hlt)
    have hinsert : Entries.insert e.1 e.2.toJson (es.map fun e => (e.1, e.2.toJson)) =
        (e.1, e.2.toJson) :: es.map fun e => (e.1, e.2.toJson) := by
      cases es with
      | nil => rfl
      | cons e' es =>
        have hlt : e.1 < e'.1 := hk e'.1 List.mem_cons_self
        simp [Entries.insert, hlt]
    simp [Json.fieldValues?, e.2.value?_toJson, ih hes, hnone, hinsert]

theorem documentLeaves_toJson (r : Record) :
    documentLeaves r.toJson = r.entries.map fun e => (e.1, e.2.written) := by
  simp only [toJson, documentLeaves]
  induction r.entries with
  | nil => rfl
  | cons e es ih => simpa [leaves_toJson] using ih

theorem ofObject?_toJson (r : Record) : ofObject? r.toJson = some r.written := by
  have hv : r.toJson.value? = some r.toJson := by
    rw [toJson, Json.value?, entries, fieldValues?_increasing r.table.increasing]
    rfl
  change (r.toJson.value?).map ofJson = some r.written
  rw [hv, Option.map_some, ofJson, documentLeaves_toJson, written]

end Record

namespace DecisionOutcome

theorem toJson_fits (o : DecisionOutcome) (room : Nat) : Json.Fits (room + 2) o.toJson := by
  cases o with
  | action name => exact .fields (by simp [Json.Fits.text])
  | score total => exact .fields (by simp [Json.Fits.text, total.toJson_fits])
  | violations messages =>
    have hlist : Json.Fits (room + 1) (.list (messages.map .text)) :=
      .list fun j hj => by
        obtain ⟨m, -, rfl⟩ := List.mem_map.1 hj
        exact .text m
    exact .fields (by simp [Json.Fits.text, hlist])
  | noDecision => exact .fields (by simp [Json.Fits.text])

theorem ofJson?_toJson (o : DecisionOutcome) : ofJson? o.toJson = some o := by
  cases o with
  | action name => rfl
  | score total =>
    change (Score.ofJson? total.toJson).map DecisionOutcome.score = some (.score total)
    rw [total.ofJson?_toJson, Option.map_some]
  | violations messages =>
    change (Json.listOf? Json.text? (.list (messages.map .text))).map violations =
      some (.violations messages)
    rw [Json.listOf?_text, Option.map_some]
  | noDecision => rfl

end DecisionOutcome

namespace Decision

/-- A decision that may be written: the numbers of its record are finite, and its time is one of the
calendar. -/
structure Writable (d : Decision) : Prop where
  record : d.record.isFinite = true
  time : d.evaluatedAt.Valid

theorem toJson_fits (d : Decision) (room : Nat) : Json.Fits (room + 3) d.toJson := by
  have hids : Json.Fits (room + 2) (.list (d.matchedRuleIds.map .text)) := .list fun j hj => by
    obtain ⟨m, -, rfl⟩ := List.mem_map.1 hj
    exact .text m
  refine .fields ?_
  simp [Json.Fits.text, d.record.toJson_fits, hids, d.outcome.toJson_fits, Instant.toJson]

def written (d : Decision) : Decision := { d with record := d.record.written }

theorem Writable.written_eq {d : Decision} (h : d.Writable) : d.written = d := by
  rw [written, Record.written_of_isFinite h.record]

theorem ofJson?_toJson {d : Decision} (h : d.evaluatedAt.Valid) :
    ofJson? d.toJson = some d.written := by
  have hrecord := d.record.ofObject?_toJson
  have houtcome := d.outcome.ofJson?_toJson
  have htime : Instant.ofJson? d.evaluatedAt.toJson = some d.evaluatedAt := Instant.read?_text h
  have hids := Json.listOf?_text d.matchedRuleIds
  have hfields : d.toJson.structure? ["id", "ruleset_id", "record_snapshot", "matched_rule_ids",
      "outcome", "evaluated_at"] = some [some (.text d.id), some (.text d.ruleSetId),
        some d.record.toJson, some (.list (d.matchedRuleIds.map .text)), some d.outcome.toJson,
        some d.evaluatedAt.toJson] := rfl
  simp only [ofJson?, hfields, Json.required?, Json.text?, hrecord, hids, houtcome, htime,
    Option.bind_eq_bind, Option.bind_some, Option.pure_def, written]

theorem read?_text_written {d : Decision} (h : d.evaluatedAt.Valid) :
    read? d.text = some d.written := by
  rw [read?, text, Json.read?_compact (d.toJson_fits 124), Option.bind_some, ofJson?_toJson h]

theorem read?_text {d : Decision} (h : d.Writable) : read? d.text = some d := by
  rw [read?_text_written h.time, h.written_eq]

end Decision

end Rulebook
