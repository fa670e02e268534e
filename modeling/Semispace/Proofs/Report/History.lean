import Semispace.Proofs.Collector.Cycle

/-!
# The history of a logger

A logger is switched on and off, cleared and given events. The calls made so far, the latest first, say what
it has kept and printed since (`Logger.history_recent`): the kept events are the latest of those it let
through since it was cleared, as many as its history holds.
-/

namespace Semispace

/-! ## A queue of bounded length -/

section
variable {α : Type}

theorem evict_eq_drop (n : Nat) (xs : List α) : evict n xs = xs.drop (xs.length + 1 - n) := by
  induction xs with
  | nil => simp [evict]
  | cons x xs ih =>
    simp only [evict, List.length_cons]
    split
    · have : xs.length + 1 + 1 - n = xs.length + 1 - n + 1 := by omega
      rw [ih, this, List.drop_succ_cons]
    · have : xs.length + 1 + 1 - n = 0 := by omega
      rw [this, List.drop_zero]

/-- The latest elements of a past make room for one more. -/
theorem evict_latest (n : Nat) (ys : List α) :
    evict (n + 1) (ys.take (n + 1)).reverse = (ys.take n).reverse := by
  -- one element leaves when all places are taken, and none otherwise
  rw [evict_eq_drop, List.drop_reverse, List.take_take]
  congr 1
  rw [List.take_eq_take_iff]
  simp only [List.length_reverse, List.length_take]
  omega

end

namespace Logger

/-- A call of a logger. -/
inductive Call
  | log (e : Event)
  | enable
  | disable
  | clear

namespace Call

/-- What a call does to a logger and to the journal. -/
def perform (s : Logger × Journal) : Call → Logger × Journal
  | log e => (s.1.keep e, s.1.record s.2 e)
  | enable => (s.1.enable, s.2)
  | disable => (s.1.disable, s.2)
  | clear => (s.1.clear, s.2)

/-- The event a call logs. -/
def event? : Call → Option Event
  | log e => some e
  | _ => none

end Call

/-! ## What the calls say

Each function reads the calls made so far, the latest first. -/

/-- The logger is on unless the latest switch turned it off. -/
def onAfter : List Call → Bool
  | [] => true
  | .enable :: _ => true
  | .disable :: _ => false
  | .log _ :: past => onAfter past
  | .clear :: past => onAfter past

/-- The event came when the logger was on, and is important enough. -/
def Heard (level : Level) (past : List Call) (e : Event) : Prop :=
  onAfter past = true ∧ e.level.rank ≤ level.rank

instance (level : Level) (past : List Call) (e : Event) : Decidable (Heard level past e) :=
  inferInstanceAs (Decidable (_ ∧ _))

/-- All events that were heard. -/
def heard (level : Level) : List Call → List Event
  | [] => []
  | .log e :: past => if Heard level past e then e :: heard level past else heard level past
  | .enable :: past => heard level past
  | .disable :: past => heard level past
  | .clear :: past => heard level past

/-- The events that were heard since the history was cleared. -/
def recent (level : Level) : List Call → List Event
  | [] => []
  | .log e :: past => if Heard level past e then e :: recent level past else recent level past
  | .enable :: past => recent level past
  | .disable :: past => recent level past
  | .clear :: _ => []

/-! ## The run -/

/-- A logger that was made with the configuration `c`, and the journal it writes to, after some calls. -/
structure Follows (c : LoggerConfig) (j : Journal) (past : List Call) (s : Logger × Journal) : Prop where
  config : s.1.config = c
  on : s.1.enabled = onAfter past
  events : s.1.events = ((recent c.level past).take c.history).reverse
  console : s.2.console.toList =
    j.console.toList ++ if c.console then (heard c.level past).reverse.map (ofConfig c).line else []
  notices : s.2.notices.toList = j.notices.toList ++ (past.filterMap Call.event?).reverse.map .event

variable {c : LoggerConfig} {j : Journal} {past : List Call} {s : Logger × Journal} {e : Event}

theorem line_congr {l l' : Logger} (h : l.config = l'.config) : l.line = l'.line := by
  funext e
  simp only [line, h]

theorem Follows.accepts_iff (h : Follows c j past s) : s.1.accepts e = true ↔ Heard c.level past e := by
  rw [accepts, h.config, h.on, Bool.and_eq_true, decide_eq_true_iff]
  rfl

theorem Follows.accepts_eq_false (h : Follows c j past s) (he : ¬ Heard c.level past e) : s.1.accepts e = false :=
  eq_false_of_ne_true fun ha => he (h.accepts_iff.mp ha)

/-- An accepted event is the latest of the history, unless there is room for none. -/
theorem events_keep {l : Logger} {ys : List Event} (h : l.accepts e = true)
    (hl : l.events = (ys.take l.config.history).reverse) :
    (l.keep e).events = ((e :: ys).take l.config.history).reverse := by
  unfold keep
  rw [h, Bool.not_true, Bool.false_or]
  cases hn : l.config.history with
  | zero => simpa [hn] using hl
  | succ n =>
    rw [hn] at hl
    simp only [hl, evict_latest, List.take_succ_cons, List.reverse_cons]
    rfl

theorem keep_of_not_accepts {l : Logger} (h : l.accepts e = false) : l.keep e = l := by
  simp [keep, h]

theorem config_keep (l : Logger) (e : Event) : (l.keep e).config = l.config := by
  unfold keep
  split <;> rfl

theorem enabled_keep (l : Logger) (e : Event) : (l.keep e).enabled = l.enabled := by
  unfold keep
  split <;> rfl

theorem console_record (l : Logger) (j : Journal) (e : Event) : (l.record j e).console.toList =
    j.console.toList ++ if l.accepts e && l.config.console then [l.line e] else [] := by
  unfold record
  dsimp only
  split
  · exact Array.toList_push
  · exact (List.append_nil _).symm

theorem Follows.log (h : Follows c j past s) (e : Event) :
    Follows c j (.log e :: past) (Call.perform s (.log e)) where
  config := (config_keep s.1 e).trans h.config
  on := (enabled_keep s.1 e).trans h.on
  events := by
    show (s.1.keep e).events = _
    by_cases he : Heard c.level past e
    · have hkeep := h.config ▸ events_keep (h.accepts_iff.mpr he) (by rw [h.config]; exact h.events)
      rw [hkeep, recent, if_pos he]
    · rw [keep_of_not_accepts (h.accepts_eq_false he), recent, if_neg he, h.events]
  console := by
    show (s.1.record s.2 e).console.toList = _
    have hline : s.1.line = (ofConfig c).line := line_congr h.config
    rw [console_record, h.console, h.config, hline, heard]
    by_cases he : Heard c.level past e
    · rw [h.accepts_iff.mpr he, if_pos he]
      cases c.console <;> simp
    · rw [h.accepts_eq_false he, if_neg he]
      simp
  notices := by
    show (s.1.record s.2 e).notices.toList = _
    rw [notices_record]
    simp [Journal.report, h.notices, Call.event?]

theorem Follows.perform (h : Follows c j past s) (call : Call) : Follows c j (call :: past) (Call.perform s call) := by
  cases call with
  | log e => exact h.log e
  | enable => exact { h with on := rfl }
  | disable => exact { h with on := rfl }
  | clear => exact { h with events := by simp [recent, Call.perform, Logger.clear] }

theorem Follows.run (h : Follows c j past s) (calls : List Call) :
    Follows c j (calls.reverse ++ past) (calls.foldl Call.perform s) := by
  induction calls generalizing past s with
  | nil => exact h
  | cons call calls ih =>
    rw [List.reverse_cons, List.append_assoc]
    exact ih (h.perform call)

theorem follows_ofConfig (c : LoggerConfig) (j : Journal) : Follows c j [] (ofConfig c, j) :=
  ⟨rfl, rfl, by simp [ofConfig, recent], by simp [heard], by simp⟩

/-- The history is the latest of the events that were heard since it was cleared, in order, as many as it
holds. The console received the events that were heard, and every event was reported. -/
theorem history_recent (c : LoggerConfig) (j : Journal) (calls : List Call) :
    let s := calls.foldl Call.perform (ofConfig c, j)
    let past := calls.reverse
    s.1.events = ((recent c.level past).take c.history).reverse ∧
    s.1.eventCount = s.1.events.length ∧ s.1.events.length = min c.history (recent c.level past).length ∧
    s.2.console.toList =
      j.console.toList ++ (if c.console then (heard c.level past).reverse.map (ofConfig c).line else []) ∧
    s.2.notices.toList = j.notices.toList ++ (calls.filterMap Call.event?).map .event := by
  intro s past
  have h : Follows c j past s := by simpa using (follows_ofConfig c j).run calls
  refine ⟨h.events, rfl, ?_, h.console, ?_⟩
  · rw [h.events, List.length_reverse, List.length_take]
  · simpa [past] using h.notices

-- clearing the history does not switch the logger on again
example (e e' : Event) : recent .trace [.log e, .clear, .log e', .disable] = [] := rfl

end Logger

end Semispace
