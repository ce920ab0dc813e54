import TagFormula.Proofs.EditorRun
import TagFormula.Session.Drawing
import TagFormula.Session.Event

/-!
# Runs of a session

What events do to a session, said once: `Reaction` lists all they can do, and every fact about events
is a case analysis over it.

* **`Event.quits`**: the presses that ask to leave.
* **`Session.Reaction`**, **`Session.handle_reaction`**: what can come of an event. In normal mode the
  editor or the calculator reacts; in the other modes an event closes what stands above the editor,
  or nothing happens.
* **`Session.Action`**, **`Session.after`**: a session through events, frames and time.
* **`Session.NoticeMatches`**: there is a notice exactly in the mode for it. The mode and the notice
  are fields of their own, so every reaction has to keep them together.
* **`Session.isOver_after_iff`**: a session is over once a quitting press has come in normal mode.
* **`Session.after_opened_isolates_modes`**: all of it for a new session.
-/

namespace TagFormula

/-- The event asks to leave: Escape is pressed, or `c` with the control key. -/
def Event.quits : Event → Bool
  | .key press .press =>
    press.key = .escape || (press.key = .character 'c' && press.control)
  | _ => false

namespace Session

/-! ## What events do -/

/-- The session that can come of an event, and the response to it. -/
inductive Reaction (s : Session) (event : Event) : Session × Response → Prop where
  /-- The event is not for this session. -/
  | ignored : Reaction s event (s, .ignored)
  /-- The screen has a new size, which the next frame will show. -/
  | resized : Reaction s event (s, .goesOn)
  | closedHelp (hmode : s.mode = .help) : Reaction s event ({ s with mode := .normal }, .goesOn)
  | dismissed (hmode : s.mode = .notice) : Reaction s event (s.dismissNotice, .goesOn)
  | left (hmode : s.mode = .normal) (hquits : event.quits = true) : Reaction s event s.leave
  | openedHelp (hmode : s.mode = .normal) : Reaction s event (s.toggleHelp, .goesOn)
  | calculated (hmode : s.mode = .normal) : Reaction s event (s.calculate, .goesOn)
  | cleared (hmode : s.mode = .normal) : Reaction s event (s.clear, .goesOn)
  | edited (hmode : s.mode = .normal) (op : Editor.Operation) (hop : op.isOffered = true) :
      Reaction s event ({ s with editor := s.editor.perform op }, .goesOn)

section

variable {s : Session} {event : Event}

/-- A key that the editor ignores leaves it as it is. -/
theorem editor_of_ignored {editor : Editor} {key : EditorKey}
    (hpress : s.editor.press key = (editor, .ignored)) : editor = s.editor := by
  have hsame : (s.editor.press key).1 = s.editor := Editor.press_of_ignored (by rw [hpress])
  rwa [hpress] at hsame

theorem editorKey_reaction (hmode : s.mode = .normal) (key : EditorKey) :
    Reaction s event (s.editorKey key) := by
  rw [editorKey]
  split
  · next editor _ hpress =>
    have heditor : editor = s.editor.perform (.press key) := by rw [Editor.perform, hpress]
    rw [heditor]
    exact .edited hmode _ rfl
  · next editor hpress =>
    rw [editor_of_ignored hpress]
    exact .ignored

/-- Backspace erases a character, or takes the last tag back. -/
theorem erase_reaction (hmode : s.mode = .normal) : Reaction s event (s.erase, .goesOn) := by
  rw [erase]
  split
  · next editor _ hpress =>
    have heditor : editor = s.editor.perform (.press .backspace) := by
      rw [Editor.perform, hpress]
    rw [heditor]
    exact .edited hmode _ rfl
  · next editor hpress =>
    rw [editor_of_ignored hpress]
    exact .edited hmode .pop rfl

/-- A character is a command with a modifier, and is typed otherwise. -/
theorem characterKey_reaction {press : KeyPress} {c : Char} (hmode : s.mode = .normal)
    (hkey : press.key = .character c) :
    Reaction s (.key press .press) (s.characterKey c press.control press.alt) := by
  unfold characterKey
  split
  · next hcontrol =>
    split
    · next hc =>
      -- control and `c` are the one character key that quits
      subst hc
      exact .left hmode (by simp [Event.quits, hkey, hcontrol])
    · split
      · exact .calculated hmode
      · split
        · exact .cleared hmode
        · exact .ignored
  · split
    · exact .ignored
    · exact .edited hmode (.push c) rfl

theorem normalKey_reaction (hmode : s.mode = .normal) (press : KeyPress) :
    Reaction s (.key press .press) (s.normalKey press) := by
  rw [normalKey]
  split
  · next hkey => exact .left hmode (by simp [Event.quits, hkey])
  · exact .openedHelp hmode
  · exact .calculated hmode
  · exact editorKey_reaction hmode _
  · exact editorKey_reaction hmode _
  · exact editorKey_reaction hmode _
  · exact erase_reaction hmode
  · next c hkey => exact characterKey_reaction hmode hkey
  · exact .ignored

/-- A press in any mode: in the other ones it closes what is open, or nothing. -/
theorem pressKey_reaction (press : KeyPress) :
    Reaction s (.key press .press) (s.pressKey press) := by
  rw [pressKey]
  split
  · next hmode => exact normalKey_reaction hmode press
  · next hmode => exact .closedHelp hmode
  · next hmode =>
    split
    · exact .dismissed hmode
    · exact .ignored

/-- A click, by the target that it hits. -/
theorem click_reaction (hmode : s.mode = .normal) (x y : Nat) : Reaction s event (s.click x y) := by
  rw [click]
  split
  · next index _ =>
    have heditor : (s.editor.delete? index).elim s.editor (·.2) =
        s.editor.perform (.delete index) := by
      rw [Editor.perform]
      cases s.editor.delete? index <;> rfl
    rw [heditor]
    exact .edited hmode _ rfl
  · next index _ => exact .edited hmode (.select index) rfl
  · exact .calculated hmode
  · exact .ignored

/-- The mouse: a click, the two directions of the wheel, and what closes the other modes. -/
theorem moveMouse_reaction (motion : MouseMotion) (x y : Nat) :
    Reaction s event (s.moveMouse motion x y) := by
  unfold moveMouse
  split
  · next hmode => exact .dismissed hmode
  · next hmode => exact .closedHelp hmode
  · next hmode => exact click_reaction hmode x y
  · next hmode => exact editorKey_reaction hmode _
  · next hmode => exact editorKey_reaction hmode _
  · exact .ignored

/-- Whatever comes of an event is one of the reactions. -/
theorem handle_reaction (s : Session) (event : Event) : Reaction s event (s.handle event) := by
  unfold handle
  split
  · exact pressKey_reaction _
  · exact moveMouse_reaction _ _ _
  · exact .resized
  · exact .ignored

/-- In normal mode a press that quits is obeyed. -/
theorem handle_of_quits (hmode : s.mode = .normal) (hquits : event.quits = true) :
    s.handle event = s.leave := by
  unfold Event.quits at hquits
  split at hquits
  · next press =>
    rw [Bool.or_eq_true, Bool.and_eq_true, decide_eq_true_eq, decide_eq_true_eq] at hquits
    rw [handle, pressKey, hmode]
    rcases hquits with hkey | ⟨hkey, hcontrol⟩
    · simp only [normalKey, hkey]
    · simp only [normalKey, hkey, characterKey, hcontrol, if_true]
  · cases hquits

end

/-! ## What a reaction leaves alone -/

/-- A calculation ends with a message or with a notice. -/
theorem calculate_eq_or (s : Session) :
    (∃ calculator message, s.calculate = { s with calculator }.tell message) ∨
      ∃ calculator text, s.calculate = { s with calculator }.openNotice text := by
  rw [calculate]
  split
  · next calculator e _ => exact Or.inl ⟨calculator, ⟨.success, e.summary⟩, rfl⟩
  · next calculator e _ => exact Or.inr ⟨calculator, s!"Invalid expression: {e.message}", rfl⟩

namespace Reaction

variable {s : Session} {event : Event} {result : Session × Response}

/-- The session ends in normal mode only. -/
theorem quits_of_ends (h : Reaction s event result) (hends : result.2 = .ends) :
    s.mode = .normal ∧ event.quits = true := by
  cases h with
  | left hmode hquits => exact ⟨hmode, hquits⟩
  | _ => cases hends

/-- A session is over if it was or if the event quits it. -/
theorem isOver_cases (h : Reaction s event result) :
    result.1.isOver = s.isOver ∨ result.1.isOver = true ∧ s.mode = .normal ∧ event.quits = true := by
  cases h with
  | left hmode hquits => exact Or.inr ⟨rfl, hmode, hquits⟩
  | calculated _ =>
    left
    rcases calculate_eq_or s with ⟨_, _, h⟩ | ⟨_, _, h⟩ <;> rw [h] <;> rfl
  | _ => exact Or.inl rfl

/-- Outside normal mode only the mode and the notice change. -/
theorem eq_with_of_not_normal (h : Reaction s event result) (hmode : s.mode ≠ .normal) :
    result.1 = { s with mode := result.1.mode, notice := result.1.notice } := by
  cases h with
  | ignored | resized | closedHelp _ | dismissed _ => rfl
  | left hnormal | openedHelp hnormal | calculated hnormal | cleared hnormal | edited hnormal =>
    exact absurd hnormal hmode

end Reaction

/-- Only a press that quits in normal mode is answered with the end. -/
theorem handle_ends_iff {s : Session} {event : Event} :
    (s.handle event).2 = .ends ↔ s.mode = .normal ∧ event.quits = true := by
  refine ⟨(handle_reaction s event).quits_of_ends, ?_⟩
  rintro ⟨hmode, hquits⟩
  rw [handle_of_quits hmode hquits]
  rfl

/-- A session that is over stays so. -/
theorem isOver_handle_iff {s : Session} {event : Event} :
    (s.handle event).1.isOver = true ↔
      s.isOver = true ∨ s.mode = .normal ∧ event.quits = true := by
  constructor
  · intro hover
    rcases (handle_reaction s event).isOver_cases with hsame | ⟨_, hquits⟩
    · exact Or.inl (hsame ▸ hover)
    · exact Or.inr hquits
  · rintro (hover | ⟨hmode, hquits⟩)
    · rcases (handle_reaction s event).isOver_cases with hsame | ⟨hover', _⟩
      · exact hsame.trans hover
      · exact hover'
    · rw [handle_of_quits hmode hquits]
      rfl

/-! ## Mode and notice -/

/-- There is a notice exactly in the mode for it. -/
def NoticeMatches (s : Session) : Prop :=
  s.mode = .notice ↔ s.notice.isSome = true

/-- The text of a notice is kept in its own mode only. -/
theorem NoticeMatches.notice_eq_none {s : Session} (h : s.NoticeMatches) (hmode : s.mode ≠ .notice) :
    s.notice = none := by
  rw [← Option.not_isSome_iff_eq_none]
  exact fun hsome => hmode (h.2 hsome)

/-- A session without a notice that is in another mode. -/
theorem NoticeMatches.of_none {s : Session} (hnotice : s.notice = none) (hmode : s.mode ≠ .notice) :
    s.NoticeMatches := by
  refine ⟨fun h => absurd h hmode, fun h => ?_⟩
  rw [hnotice] at h
  cases h

theorem Reaction.noticeMatches {s : Session} {event : Event} {result : Session × Response}
    (h : Reaction s event result) (hs : s.NoticeMatches) : result.1.NoticeMatches := by
  cases h with
  | ignored | resized | cleared _ | edited _ _ | left _ _ => exact hs
  | closedHelp hmode => exact .of_none (hs.notice_eq_none (by rw [hmode]; decide)) (by simp)
  | dismissed _ => exact .of_none rfl (by simp [dismissNotice])
  | openedHelp hmode =>
    refine .of_none (hs.notice_eq_none (by rw [hmode]; decide)) ?_
    simp [toggleHelp, hmode]
  | calculated hmode =>
    rcases calculate_eq_or s with ⟨_, _, h⟩ | ⟨_, _, h⟩
    · rw [h]
      exact hs
    · rw [h]
      exact ⟨fun _ => rfl, fun _ => rfl⟩

/-! ## Runs -/

/-- What happens to a session from outside: an event, a frame on a screen, time that passes, and
messages that are dropped. -/
inductive Action where
  | handle (event : Event)
  | draw (area : Screen.Area)
  | wait (milliseconds : Nat)
  | expire

/-- What an action makes of a session. -/
def perform (s : Session) : Action → Session
  | .handle event => (s.handle event).1
  | .draw area => (s.draw area).1
  | .wait milliseconds => s.wait milliseconds
  | .expire => s.expire

/-- The session after some actions. -/
def after (s : Session) (actions : List Action) : Session :=
  actions.foldl perform s

/-- A new session. -/
def opened (editor : Editor) (messageTime : Nat) (hints : List KeyHint) : Session :=
  { editor, messageTime, hints }

/-- What holds of a session and is kept by every action holds after any of them. -/
theorem after_induction {P : Session → Prop} {s : Session} (start : P s)
    (step : ∀ s action, P s → P (s.perform action)) (actions : List Action) : P (s.after actions) :=
  List.foldlRecOn actions perform start fun s hs action _ => step s action hs

/-- The run. Induction on the actions. -/
theorem after_noticeMatches {s : Session} (hs : s.NoticeMatches) (actions : List Action) :
    (s.after actions).NoticeMatches := by
  refine after_induction hs (fun s action h => ?_) actions
  cases action with
  | handle event => exact (handle_reaction s event).noticeMatches h
  | draw area | wait milliseconds | expire => exact h

/-- Frames and pauses end no session. -/
theorem isOver_perform_iff {s : Session} {action : Action} :
    (s.perform action).isOver = true ↔
      s.isOver = true ∨ ∃ event, action = .handle event ∧ s.mode = .normal ∧ event.quits = true := by
  cases action with
  | handle event =>
    rw [perform, isOver_handle_iff]
    simp
  | draw area | wait milliseconds | expire => simp [perform, draw, wait, expire]

/-- A session is over if it was so before, or if a press has quit it in normal mode. -/
theorem isOver_after_iff (s : Session) (actions : List Action) :
    (s.after actions).isOver = true ↔ s.isOver = true ∨
      ∃ earlier event later, actions = earlier ++ .handle event :: later ∧
        (s.after earlier).mode = .normal ∧ event.quits = true := by
  induction actions generalizing s with
  | nil => simp [after]
  | cons action rest ih =>
    show ((s.perform action).after rest).isOver = true ↔ _
    rw [ih, isOver_perform_iff]
    constructor
    · rintro ((hover | ⟨event, rfl, hquits⟩) | ⟨earlier, event, later, rfl, hquits⟩)
      · exact Or.inl hover
      · exact Or.inr ⟨[], event, rest, rfl, hquits⟩
      · exact Or.inr ⟨action :: earlier, event, later, rfl, hquits⟩
    · rintro (hover | ⟨earlier, event, later, hactions, hquits⟩)
      · exact Or.inl (Or.inl hover)
      · -- the press is the first action or one of the others
        rcases List.cons_eq_append_iff.1 hactions with ⟨rfl, hfirst⟩ | ⟨earlier', rfl, hrest⟩
        · cases hfirst
          exact Or.inl (Or.inr ⟨event, rfl, hquits⟩)
        · exact Or.inr ⟨earlier', event, later, hrest, hquits⟩

/-- **Modes are isolated.** After any events, frames and pauses of a new session there is a notice
exactly in the mode for it. Outside normal mode an event changes the mode and the notice, no more. An
event is answered with the end exactly if it is a press of Escape, or of `c` with the control key, in
normal mode; and the session is over exactly from the first such press on. -/
theorem after_opened_isolates_modes (editor : Editor) (messageTime : Nat) (hints : List KeyHint)
    (actions : List Action) :
    let s := (opened editor messageTime hints).after actions
    (s.mode = .notice ↔ s.notice.isSome = true) ∧
      (∀ event, s.mode ≠ .normal → (s.handle event).1 =
        { s with mode := (s.handle event).1.mode, notice := (s.handle event).1.notice }) ∧
      (∀ event, (s.handle event).2 = .ends ↔ s.mode = .normal ∧ event.quits = true) ∧
      (∀ event, (s.handle event).1.isOver = true ↔
        s.isOver = true ∨ s.mode = .normal ∧ event.quits = true) ∧
      (s.isOver = true ↔ ∃ earlier event later, actions = earlier ++ .handle event :: later ∧
        ((opened editor messageTime hints).after earlier).mode = .normal ∧ event.quits = true) := by
  intro s
  -- a new session shows no notice, and is not over
  have hnotice : (opened editor messageTime hints).NoticeMatches := .of_none rfl (by simp [opened])
  have hover : (opened editor messageTime hints).isOver = false := rfl
  refine ⟨after_noticeMatches hnotice actions, fun event hmode => ?_, fun event => handle_ends_iff,
    fun event => isOver_handle_iff, ?_⟩
  · exact (handle_reaction s event).eq_with_of_not_normal hmode
  · rw [isOver_after_iff, hover]
    simp

/-- An empty formula that is calculated opens a notice, which takes Escape for itself. -/
theorem after_calculating_nothing_escape :
    let s := (opened ⟨⟨[]⟩, [], "", none⟩ 0 []).after [.handle (.key { key := .function 5 } .press)]
    let escape := Event.key { key := .escape } .press
    s.mode ≠ .normal ∧ s.notice.isSome = true ∧ (s.handle escape).2 ≠ .ends ∧
      (s.handle escape).1 = { s with mode := .normal, notice := none } := by
  intro s escape
  obtain ⟨hnotice, hisolated, hends, _, _⟩ := after_opened_isolates_modes ⟨⟨[]⟩, [], "", none⟩ 0 []
    [.handle (.key { key := .function 5 } .press)]
  have hmode : s.mode = .notice := by decide +kernel
  have hne : s.mode ≠ .normal := by
    rw [hmode]
    decide
  refine ⟨hne, hnotice.1 hmode, fun h => hne ((hends escape).1 h).1, ?_⟩
  rw [hisolated escape hne]
  have hescape : s.handle escape = (s.dismissNotice, .goesOn) := by
    simp only [escape, handle, pressKey, hmode, dismisses, if_true]
  rw [hescape]
  rfl

end Session

end TagFormula
