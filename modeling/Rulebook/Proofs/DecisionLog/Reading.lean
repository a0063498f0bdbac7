import Rulebook.DecisionLog
import Rulebook.Proofs.Decision
import Rulebook.Proofs.Json.OneLine
import Rulebook.Proofs.Lines
/-!
Reading a log file. A line that is no decision is passed over, but a line that is no text ends the
reading, wherever it stands. Main statement: a query answers with the decisions of all lines that
decode exactly if every line is text.
-/

set_option autoImplicit false

namespace Rulebook

namespace Bytes

def isText (bs : Bytes) : Bool := (text? bs).isSome

theorem isText_ofText (s : String) : isText (ofText s) = true := by
  rw [isText, text?_ofText, Option.isSome_some]

theorem isText_iff (bs : Bytes) : isText bs = true ↔ ByteArray.IsValidUTF8 ⟨bs.toArray⟩ := by
  simp only [isText, text?, String.fromUTF8?]
  split <;> simp_all

/-- The first bytes of a text are text exactly if they end where a character does. -/
theorem isText_take_ofText {s : String} {k : Nat} (hk : k ≤ (ofText s).length) :
    isText ((ofText s).take k) = true ↔ (String.Pos.Raw.mk k).IsValid s := by
  have hextract : (⟨((ofText s).take k).toArray⟩ : ByteArray) = s.toByteArray.extract 0 k := by
    ext1
    apply Array.ext'
    simp [ofText, Array.toList_extract]
  have hle : String.Pos.Raw.mk k ≤ s.rawEndPos := by
    simpa [String.Pos.Raw.le_iff, ofText] using hk
  rw [isText_iff, hextract, String.Pos.Raw.isValid_iff_isValidUTF8_extract_zero]
  exact ⟨fun h => ⟨hle, h⟩, fun h => h.2⟩

theorem mapM_text? (ls : List Bytes) :
    ls.mapM text? = if ls.all isText then some (ls.filterMap text?) else none := by
  induction ls with
  | nil => rfl
  | cons l ls ih =>
    rw [List.mapM_cons, ih]
    cases h : text? l with
    | none => simp [isText, h]
    | some s => by_cases hls : ls.all isText = true <;> simp [isText, h, hls]

end Bytes

namespace DecisionLog

def decode? (l : Bytes) : Option Decision := (Bytes.text? l).bind Decision.read?

theorem decisions?_eq (ls : List Bytes) :
    decisions? ls = if ls.all Bytes.isText then some (ls.filterMap decode?) else none := by
  simp only [decisions?, Bytes.mapM_text?]
  by_cases h : ls.all Bytes.isText = true
  · simp [h, List.filterMap_filterMap]
    rfl
  · simp [h]

theorem query_file {disk : Disk} {p : Path} {content : Bytes} (h : disk.read p = .ok content)
    (handle : OpenFile) (id : Option String) :
    (file p handle).query disk none id =
      if (Bytes.lines content).all Bytes.isText then
        .ok (((Bytes.lines content).filterMap decode?).filter (ofRuleSet id))
      else .error (.ofDisk .notText) := by
  simp only [query, h, decisions?_eq]
  by_cases ht : (Bytes.lines content).all Bytes.isText = true
  · simp [ht]
  · simp [ht]

theorem lineEnd_not_mem_text (d : Decision) : Bytes.lineEnd ∉ Bytes.ofText d.text := by
  rw [Bytes.lineEnd_mem_ofText]
  exact Json.lineEnd_not_mem_compact d.toJson

theorem line_eq (d : Decision) : line d = Bytes.ofText d.text ++ [Bytes.lineEnd] :=
  Bytes.ofText_append d.text "\n"

theorem decode?_text_written {d : Decision} (h : d.evaluatedAt.Valid) :
    decode? (Bytes.ofText d.text) = some d.written := by
  rw [decode?, Bytes.text?_ofText, Option.bind_some, Decision.read?_text_written h]

theorem decode?_text {d : Decision} (h : d.Writable) : decode? (Bytes.ofText d.text) = some d := by
  rw [decode?_text_written h.time, h.written_eq]

/-- A query of a file that can be read answers with the decisions of all lines that decode, exactly
if every line is text; a line that is none makes it fail, whatever the lines before and after it
are. A decision that was cut off does so exactly if it was cut within a character. -/
theorem query_answers_iff_text {disk : Disk} {p : Path} {content : Bytes}
    (h : disk.read p = .ok content) (handle : OpenFile) (id : Option String) :
    ((file p handle).query disk none id =
        .ok (((Bytes.lines content).filterMap decode?).filter (ofRuleSet id)) ↔
      ∀ l ∈ Bytes.lines content, Bytes.isText l = true) ∧
    ((∃ l ∈ Bytes.lines content, Bytes.isText l = false) →
      (file p handle).query disk none id = .error (.ofDisk .notText)) ∧
    ∀ (whole : Bytes) (d : Decision) (k : Nat), Bytes.endsMidLine whole = false →
      (∀ l ∈ Bytes.lines whole, Bytes.isText l = true) → k ≤ (Bytes.ofText d.text).length →
      content = whole ++ ((Bytes.ofText d.text).take k ++ [Bytes.lineEnd]) →
      ((file p handle).query disk none id =
          .ok (((Bytes.lines content).filterMap decode?).filter (ofRuleSet id)) ↔
        (String.Pos.Raw.mk k).IsValid d.text) := by
  have hquery := query_file h handle id
  have hiff : (file p handle).query disk none id =
        .ok (((Bytes.lines content).filterMap decode?).filter (ofRuleSet id)) ↔
      ∀ l ∈ Bytes.lines content, Bytes.isText l = true := by
    rw [hquery, ← List.all_eq_true]
    split <;> simp_all
  refine ⟨hiff, ?_, fun whole d k hwhole htext hk hcontent => ?_⟩
  · rintro ⟨l, hl, hn⟩
    rw [hquery, if_neg]
    intro hall
    rw [List.all_eq_true.1 hall l hl] at hn
    cases hn
  · have hcut : Bytes.lineEnd ∉ (Bytes.ofText d.text).take k :=
      fun hm => lineEnd_not_mem_text d (List.mem_of_mem_take hm)
    rw [hiff, hcontent, Bytes.lines_append_line hwhole hcut, ← Bytes.isText_take_ofText hk]
    simp only [List.forall_mem_append, List.forall_mem_singleton]
    exact and_iff_right htext

def nothingDecided : Decision := ⟨"d-1", "points", .empty, [], .noDecision, Instant.epoch⟩

theorem nothingDecided_writable : nothingDecided.Writable :=
  ⟨rfl, ⟨rfl, by decide, by decide, by decide⟩⟩

def cutContent : Bytes :=
  line nothingDecided ++ ([0x7B, 0x22, 0xE8, 0xA7] ++ Bytes.lineEnd :: line nothingDecided)

def cutDisk : Disk := Disk.empty.put ["log"] (some (.file 0 cutContent))

theorem query_cut_character :
    cutDisk.read ["log"] = .ok cutContent ∧
    (Bytes.lines cutContent).filterMap decode? = [nothingDecided, nothingDecided] ∧
    (file ["log"] ⟨["log"], .file 0 []⟩).query cutDisk none none = .error (.ofDisk .notText) := by
  have hread : cutDisk.read ["log"] = .ok cutContent := rfl
  have hcut : Bytes.text? [0x7B, 0x22, 0xE8, 0xA7] = none := by decide +kernel
  have hlines : Bytes.lines cutContent = [Bytes.ofText nothingDecided.text,
      [0x7B, 0x22, 0xE8, 0xA7], Bytes.ofText nothingDecided.text] := by
    have hend := lineEnd_not_mem_text nothingDecided
    rw [cutContent, line_eq, List.append_assoc, List.singleton_append, Bytes.lines_cons_line hend,
      Bytes.lines_cons_line (by decide), Bytes.lines_cons_line hend]
    rfl
  have hdecode : decode? (Bytes.ofText nothingDecided.text) = some nothingDecided :=
    decode?_text nothingDecided_writable
  have hnone : decode? [0x7B, 0x22, 0xE8, 0xA7] = none := by rw [decode?, hcut, Option.bind_none]
  have hfails := (query_answers_iff_text hread ⟨["log"], .file 0 []⟩ none).2.1
  refine ⟨hread, ?_, hfails ⟨[0x7B, 0x22, 0xE8, 0xA7], ?_, ?_⟩⟩
  · simp [hlines, hdecode, hnone]
  · simp [hlines]
  · simp [Bytes.isText, hcut]

end DecisionLog

end Rulebook
