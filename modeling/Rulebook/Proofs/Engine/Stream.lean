import Rulebook.Program
import Rulebook.Proofs.Engine.History
import Rulebook.Proofs.Flattening
import Rulebook.Proofs.Json.OneLine
/-!
Streams of requests. A line is answered by what it asks for, whatever stands in the lines around it.
Main statement: every line that is not blank gets one line of output, and the log gets the decisions
of the receipts among them.
-/

set_option autoImplicit false

namespace Rulebook

namespace Program

theorem texts_map_ofText (lines : List String) :
    texts (lines.map Bytes.ofText) = (lines, true) := by
  induction lines with
  | nil => rfl
  | cons line lines ih => rw [List.map_cons, texts, Bytes.text?_ofText, ih]

/-- A text is read to its end. There is no line behind a last line end. -/
theorem texts_lines (input : String) : ∃ lines,
    texts (Bytes.lines (Bytes.ofText input)) = (lines, true) ∧
      (Bytes.textLines input = lines ∨ Bytes.textLines input = lines ++ [""]) := by
  have hlines := Bytes.lines_ofText input
  rw [Bytes.lines_append_lineEnd] at hlines
  split at hlines
  · exact ⟨_, by rw [hlines, texts_map_ofText], .inl rfl⟩
  · obtain ⟨lines, last, heq, hlast, hend⟩ := List.map_eq_append_iff.1 hlines.symm
    obtain ⟨line, none, rfl, hline, hnone⟩ := List.map_eq_cons_iff.1 hend
    obtain rfl := List.map_eq_nil_iff.1 hnone
    have hempty : line = "" := by
      have hread := Bytes.text?_ofText line
      rw [hline] at hread
      exact (Option.some.inj (hread.symm.trans (Bytes.text?_ofText "")))
    exact ⟨lines, by rw [← hlast, texts_map_ofText], .inr (hempty ▸ heq)⟩

end Program

theorem Request.isFinite_of_read? {line : String} {q : Request} (h : read? line = some q) :
    q.record.isFinite = true := by
  obtain ⟨j, hj, h⟩ := Option.bind_eq_some_iff.1 h
  obtain ⟨parts, hparts, h⟩ := Option.bind_eq_some_iff.1 h
  split at h
  · rename_i id part
    obtain ⟨ruleSetId, -, h⟩ := Option.bind_eq_some_iff.1 h
    obtain ⟨record, hrecord, h⟩ := Option.bind_eq_some_iff.1 h
    cases h
    cases part with
    | none =>
      cases hrecord
      rfl
    | some part =>
      have hpart : part.Finite := (Json.finite_of_read? hj).structure? hparts (by simp)
      exact Record.isFinite_of_ofObject? hpart hrecord
  · cases h

def Evaluation.receipt (v : Evaluation) : Receipt := ⟨v.decision, .recorded, v.trace⟩

namespace Receipt

def unstamped (r : Receipt) : Receipt :=
  { r with decision := { r.decision with id := "", evaluatedAt := .epoch } }

theorem toJson_fits (r : Receipt) : Json.Fits Json.depthLimit r.toJson := by
  have hstatus : Json.Fits 126 r.status.toJson := by
    cases r.status <;> exact .fields (by simp [Json.Fits.text])
  have htrace : Json.Fits 126 (.list (r.trace.map fun line => .text line.message)) :=
    .list fun j hj => by
      obtain ⟨line, -, rfl⟩ := List.mem_map.1 hj
      exact .text line.message
  refine .fields fun e he => ?_
  rcases List.mem_append.1 he with he | he
  · rcases List.mem_pair.1 he with rfl | rfl
    · exact r.decision.toJson_fits 123
    · exact hstatus
  · split at he
    · cases he
    · exact List.mem_singleton.1 he ▸ htrace

end Receipt

namespace Answer

def Says (a : Answer) (j : Json) : Prop := Json.read? a.text = some j

/-- The line tells an error: its code and what it means. -/
def Refuses (a : Answer) (code message : String) : Prop :=
  a.Says (.fields [("code", .text code), ("message", .text message)])

theorem refuses_of_toJson {a : Answer} {code message : String}
    (h : a.toJson = error code message) : a.Refuses code message := by
  rw [Refuses, Says, text, h]
  exact Json.read?_compact (.fields (by simp [Json.Fits.text]))

/-- The line tells what was decided, that it is in the log, and each line of the trace there is. -/
def Tells (a : Answer) (v : Evaluation) : Prop :=
  ∃ decision, Decision.ofJson? decision = some v.decision ∧
    a.Says (.fields ([("decision", decision),
      ("log_status", .fields [("status", .text "recorded")])] ++
        if v.trace.isEmpty then []
        else [("evaluation_trace", .list (v.trace.map fun line => .text line.message))]))

theorem receipt_tells {v : Evaluation} (h : v.decision.Writable) : (receipt v.receipt).Tells v := by
  have hdecision : Decision.ofJson? v.decision.toJson = some v.decision := by
    rw [Decision.ofJson?_toJson h.time, h.written_eq]
  exact ⟨v.decision.toJson, hdecision, Json.read?_compact v.receipt.toJson_fits⟩

theorem lines_ofLines_text (answers : List Answer) :
    Bytes.lines (Bytes.ofLines (answers.map fun a => Bytes.ofText a.text)) =
      answers.map fun a => Bytes.ofText a.text := by
  have hwhole : ∀ l ∈ answers.map fun a => Bytes.ofText a.text, Bytes.lineEnd ∉ l :=
    List.forall_mem_map.2 fun a _ =>
      mt Bytes.lineEnd_mem_ofText.1 (Json.lineEnd_not_mem_compact a.toJson)
  have hlines := Bytes.lines_ofLines_append hwhole []
  rwa [List.append_nil, Bytes.lines, List.append_nil] at hlines

def decision? : Answer → Option Decision
  | .receipt r => some r.decision
  | _ => none

def upshot? : Answer → Option (Except EngineError Receipt)
  | .receipt r => some (.ok r.unstamped)
  | .failure err => some (.error err)
  | .unreadable _ => none

end Answer

namespace Engine

variable {e e' : Engine} {disk disk' : Disk} {ds : List Decision} {reason : String → String}
  {stamp : Stamp} {stamps : Nat → Stamp} {line : String} {a : Answer} {answers : List Answer}

/-- What a line is answered with, if what is decided can be recorded: the answer, and what is read
on the line that goes out. -/
def Answers (e : Engine) (reason : String → String) (stamp : Stamp) (line : String) (a : Answer) :
    Prop :=
  match Request.read? line with
  | none => a = .unreadable (reason line) ∧ a.Refuses "INVALID_REQUEST" (reason line)
  | some q =>
    match e.registry.get? q.ruleSetId with
    | none =>
      a = .failure (.notFound q.ruleSetId) ∧
        a.Refuses "RULESET_NOT_FOUND" ("规则集未找到: " ++ q.ruleSetId)
    | some s =>
      a = .receipt (s.evaluate e.traced stamp q.record).receipt ∧
        a.Tells (s.evaluate e.traced stamp q.record)

theorem appendResult_of_holds {log : DecisionLog} (h : log.Holds disk ds) :
    log.appendResult none = .ok () := by
  rcases h with rfl | ⟨p, place, number, content, rfl, -⟩ <;> rfl

theorem answer_answers (h : e.log.Holds disk ds) (hstamp : stamp.time.Valid) (line : String) :
    ∃ a log disk', e.answer disk reason stamp none line = (a, { e with log }, disk') ∧
      e.Answers reason stamp line a ∧ log.Holds disk' (ds ++ a.decision?.toList) := by
  have hsame : e.log.Holds disk (ds ++ []) := (List.append_nil ds).symm ▸ h
  unfold answer consider Answers
  cases hread : Request.read? line with
  | none => exact ⟨_, _, _, rfl, ⟨rfl, Answer.refuses_of_toJson rfl⟩, hsame⟩
  | some q =>
    cases hs : e.registry.get? q.ruleSetId with
    | none =>
      simp only [decide, ruleSet, hs]
      exact ⟨_, _, _, rfl, ⟨rfl, Answer.refuses_of_toJson rfl⟩, hsame⟩
    | some s =>
      have hresult := appendResult_of_holds h
      have hwritable : (s.evaluate e.traced stamp q.record).decision.Writable :=
        ⟨Request.isFinite_of_read? hread, hstamp⟩
      have hcare : e.log.handle? = none ∨ (∀ f ∈ (none : Option WriteFault), f.takenBack = true) ∧
          (s.evaluate e.traced stamp q.record).decision.Writable := .inr ⟨by simp, hwritable⟩
      have hholds := h.append hcare
      rw [hresult] at hholds
      simp only [decide, ruleSet, hs, record, DecisionLog.append_result, hresult]
      exact ⟨_, _, _, rfl, ⟨rfl, Answer.receipt_tells hwritable⟩, hholds⟩

/-- All lines: the induction is on the lines, each with the position that it has in the input. -/
theorem answerFrom_answers (h : e.log.Holds disk ds) (hstamps : ∀ k, (stamps k).time.Valid)
    (k : Nat) (lines : List String) :
    ∃ answers log disk',
      e.answerFrom k disk reason stamps (fun _ => none) lines = (answers, { e with log }, disk') ∧
      List.Forall₂ (fun x a => e.Answers reason (stamps x.2) x.1 a)
        ((lines.zipIdx k).filter fun x => !Text.allBlank x.1) answers ∧
      log.Holds disk' (ds ++ answers.filterMap Answer.decision?) := by
  induction lines generalizing e disk ds k with
  | nil => exact ⟨[], _, _, rfl, .nil, (List.append_nil ds).symm ▸ h⟩
  | cons line lines ih =>
    rw [List.zipIdx_cons, List.filter_cons, answerFrom]
    cases hblank : Text.allBlank line with
    | true => exact ih h (k + 1)
    | false =>
      obtain ⟨a, log, disk₁, hanswer, hfirst, hholds⟩ := answer_answers h (hstamps k) line
      obtain ⟨answers, log', disk', hanswers, hlater, hend⟩ := @ih { e with log } _ _ hholds (k + 1)
      refine ⟨a :: answers, log', disk', ?_, .cons hfirst hlater, ?_⟩
      · rw [if_neg Bool.false_ne_true, hanswer]
        simp only [hanswers]
      · rw [List.append_assoc] at hend
        cases a <;> exact hend

def upshot (e : Engine) (q : Request) : Except EngineError Receipt :=
  match e.registry.get? q.ruleSetId with
  | none => .error (.notFound q.ruleSetId)
  | some s => .ok (s.evaluate e.traced ⟨"", .epoch⟩ q.record).receipt

theorem Answers.upshot? (h : e.Answers reason stamp line a) :
    a.upshot? = (Request.read? line).map e.upshot := by
  unfold Answers at h
  cases hread : Request.read? line with
  | none =>
    rw [hread] at h
    rw [h.1]
    rfl
  | some q =>
    rw [hread] at h
    rw [Option.map_some, upshot]
    dsimp only at h
    cases hs : e.registry.get? q.ruleSetId with
    | none =>
      rw [hs] at h
      rw [h.1]
      rfl
    | some s =>
      rw [hs] at h
      rw [h.1]
      rfl

theorem upshots_of_answers {lines : List (String × Nat)}
    (h : List.Forall₂ (fun x a => e.Answers reason (stamps x.2) x.1 a) lines answers) :
    answers.filterMap Answer.upshot? =
      (lines.filterMap fun x => Request.read? x.1).map e.upshot := by
  induction h with
  | nil => rfl
  | cons hfirst _ ih =>
    rw [List.filterMap_cons, List.filterMap_cons, hfirst.upshot?, ih]
    cases Request.read? _ <;> rfl

def serve (e : Engine) (disk : Disk) (reason : String → String) (stamps : Nat → Stamp)
    (input : String) : List Answer × Engine × Disk :=
  e.answerAll disk reason stamps (fun _ => none)
    (Program.texts (Bytes.lines (Bytes.ofText input))).1

def asked (input : String) : List (String × Nat) :=
  (Bytes.textLines input).zipIdx.filter fun x => !Text.allBlank x.1

def requests (input : String) : List Request := (asked input).filterMap fun x => Request.read? x.1

theorem serve_answers (h : e.log.Holds disk ds) (hstamps : ∀ k, (stamps k).time.Valid)
    (input : String) :
    ∃ answers log disk', e.serve disk reason stamps input = (answers, { e with log }, disk') ∧
      List.Forall₂ (fun x a => e.Answers reason (stamps x.2) x.1 a) (asked input) answers ∧
      log.Holds disk' (ds ++ answers.filterMap Answer.decision?) := by
  obtain ⟨lines, htexts, hlines⟩ := Program.texts_lines input
  have hasked : asked input = lines.zipIdx.filter fun x => !Text.allBlank x.1 := by
    rcases hlines with heq | heq
    · rw [asked, heq]
    -- The empty piece behind a last line end is blank, so it asks for nothing.
    · have hblank : Text.allBlank "" = true := rfl
      simp [asked, heq, List.zipIdx_append, hblank]
  rw [serve, htexts, hasked]
  exact answerFrom_answers h hstamps 0 lines

structure Served (e : Engine) (disk : Disk) (ds : List Decision) (reason : String → String)
    (stamps : Nat → Stamp) (input : String) (answers : List Answer) (e' : Engine) (disk' : Disk) :
    Prop where
  answered : List.Forall₂ (fun x a => e.Answers reason (stamps x.2) x.1 a) (asked input) answers
  /-- A program that has started goes on to the end of its input. -/
  written : ∀ clock directory vars before, Program.start clock directory
      (Program.settings (fun name => before.file? (Path.resolve directory name)) vars).engine
        before = (.ok e, disk) →
    Program.run clock stamps directory vars (Bytes.ofText input) before reason =
      ⟨true, answers.map Answer.text, disk'⟩
  /-- No text in a document ends the line it is on. -/
  framed : (∀ j : Json, '\n' ∉ j.compact.toList) ∧
    Bytes.lines (Bytes.ofLines (answers.map fun a => Bytes.ofText a.text)) =
      answers.map fun a => Bytes.ofText a.text
  /-- Lines that are no requests may come and go: the requests come to the same. -/
  undisturbed : ∀ stamps' input', (∀ k, (stamps' k).time.Valid) → requests input' = requests input →
    (e.serve disk reason stamps' input').1.filterMap Answer.upshot? =
      answers.filterMap Answer.upshot?
  logged : ∀ id, e'.decisions disk' none id =
    .ok ((ds ++ answers.filterMap Answer.decision?).filter (DecisionLog.ofRuleSet id))

/-- Every line that is not blank is answered, whatever the lines contain. -/
theorem served_by_lines {input : String} (h : e.log.Holds disk ds)
    (hstamps : ∀ k, (stamps k).time.Valid)
    (hserve : e.serve disk reason stamps input = (answers, e', disk')) :
    Served e disk ds reason stamps input answers e' disk' := by
  obtain ⟨answers, log, disk', hserved, hanswered, hholds⟩ := serve_answers h hstamps input
  rw [hserved] at hserve
  cases hserve
  constructor
  case answered => exact hanswered
  case written =>
    intro clock directory vars before hstart
    obtain ⟨lines, htexts, -⟩ := Program.texts_lines input
    rw [serve, htexts] at hserved
    unfold Program.run
    dsimp only
    rw [hstart, htexts]
    dsimp only
    rw [hserved]
  case framed => exact ⟨Json.lineEnd_not_mem_compact, Answer.lines_ofLines_text answers⟩
  case undisturbed =>
    intro stamps' input' hstamps' hrequests
    obtain ⟨answers', log', disk'', hserved', hanswered', -⟩ := serve_answers h hstamps' input'
    calc
      (e.serve disk reason stamps' input').1.filterMap Answer.upshot? =
          answers'.filterMap Answer.upshot? := by rw [hserved']
      _ = (requests input').map e.upshot := upshots_of_answers hanswered'
      _ = (requests input).map e.upshot := by rw [hrequests]
      _ = answers.filterMap Answer.upshot? := (upshots_of_answers hanswered).symm
  case logged =>
    intro id
    rw [decisions, hholds.query id]
    rfl

def accepting : Engine :=
  { empty with registry := (Registry.empty.loadBatch (fun _ => .epoch) [acceptAmount "first"]).1 }

def mixed : String :=
  "\n \t\n\x7b\"ruleset_id\"\nnull\n\x7b\"ruleset_id\":\"first\",\"record\":\x7b\"amount\":" ++
    "5\x7d\x7d\n\x7b\"ruleset_id\":\"second\"\x7d\r\n"

def numbered (k : Nat) : Stamp := ⟨"d-" ++ toString k, .epoch⟩

def mixedRun : List Answer × Engine × Disk :=
  accepting.serve .empty (fun _ => "no request") numbered mixed

theorem served_by_lines_mixed : mixedRun.1.length = 4 ∧
    ∃ ds, mixedRun.2.1.decisions mixedRun.2.2 none none = .ok ds ∧ ds.map (·.id) = ["d-4"] := by
  have hepoch : Instant.epoch.Valid := ⟨rfl, by decide, by decide, by decide⟩
  have hlog : accepting.log.Holds .empty [] := .inl rfl
  have hserve : accepting.serve .empty (fun _ => "no request") numbered mixed =
      (mixedRun.1, mixedRun.2.1, mixedRun.2.2) := by rw [← mixedRun]
  have hserved := served_by_lines hlog (fun _ => hepoch) hserve
  have hasked : (asked mixed).length = 4 := by decide +kernel
  exact ⟨hserved.answered.length_eq.symm.trans hasked, _, hserved.logged none, by decide +kernel⟩

end Engine

end Rulebook
