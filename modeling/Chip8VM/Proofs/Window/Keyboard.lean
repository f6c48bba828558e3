import Chip8VM.Proofs.Processor.Command
import Chip8VM.Session
import Mathlib.Data.List.TakeWhile
import Mathlib.Data.Nat.Notation

/-!
The keypad of a session in a window. Each key of the keypad is one key of the
keyboard, and it is down if the last thing that happened to that key was that it
went down. An event that closes the window takes the later events of its frame with
it; apart from that it does not matter in which frame an event arrives.
-/

namespace Chip8VM

open Processor (Answer Command)

namespace KeyboardKey

/-- The key of the keyboard that is a key of the keypad. -/
def standingFor (k : Key) : KeyboardKey :=
  ((keyboardLayout.find? (·.2 = k)).map fun entry => character entry.1).getD other

theorem keypadKey?_standingFor (k : Key) : (standingFor k).keypadKey? = some k := by
  decide +revert +kernel

/-- No key of the keypad is two keys of the keyboard. -/
theorem keypadKey?_eq_some_iff (key : KeyboardKey) (k : Key) :
    key.keypadKey? = some k ↔ key = standingFor k := by
  constructor
  · intro hkey
    cases key with
    | character c =>
        have hall : ∀ entry ∈ keyboardLayout, character entry.1 = standingFor entry.2 := by
          decide +kernel
        obtain ⟨before, later, hlayout, -⟩ := List.lookup_eq_some_iff.mp hkey
        exact hall (c, k) (hlayout ▸ List.mem_append_right before List.mem_cons_self)
    | escape => cases hkey
    | other => cases hkey
  · rintro rfl
    exact keypadKey?_standingFor k

end KeyboardKey

namespace Transition

/-- What a transition asks of the processor. -/
def command (transition : Transition) : Command :=
  if transition.down then .press transition.key.val else .release transition.key.val

/-- What a transition says of a key: that it is down, or up, or nothing. -/
def state? (k : Key) (transition : Transition) : Option Bool :=
  if transition.key = k then some transition.down else none

theorem get_apply (transition : Transition) (keypad : Keypad) (k : Key) :
    (transition.apply keypad).get k = (transition.state? k).getD (keypad.get k) := by
  obtain ⟨key, down⟩ := transition
  have happly : apply ⟨key, down⟩ keypad = keypad.set key.val down := by cases down <;> rfl
  rw [happly]
  change (keypad.set key.val down)[k.val] = _
  by_cases hkey : key = k
  · subst hkey
    simp [state?]
  · have hval : key.val ≠ k.val := fun hval => hkey (Fin.ext hval)
    rw [Vector.getElem_set_ne _ _ hval, state?, if_neg hkey]
    rfl

/-- The last transition of a key decides. -/
theorem get_foldl_apply (transitions : List Transition) (keypad : Keypad) (k : Key) :
    (transitions.foldl (fun keypad transition => transition.apply keypad) keypad).get k =
      (transitions.filterMap (state? k)).getLast?.getD (keypad.get k) := by
  induction transitions generalizing keypad with
  | nil => rfl
  | cons transition rest ih =>
      rw [List.foldl_cons, ih, get_apply]
      cases hstate : transition.state? k with
      | none => rw [List.filterMap_cons_none hstate]; rfl
      | some down => rw [List.filterMap_cons_some hstate, List.getLast?_cons]; rfl

theorem ofInt?_val (k : Key) : Key.ofInt? k.val = some k := by
  have hkey : 0 ≤ (k.val : Int) ∧ (k.val : Int) < 16 := by omega
  rw [Key.ofInt?, dif_pos hkey]
  rfl

theorem perform_command (p : Processor) (transition : Transition) :
    p.perform transition.command =
      (.ok .done, { p with
        machine := { p.machine with keypad := transition.apply p.machine.keypad } }) := by
  obtain ⟨key, down⟩ := transition
  cases down with
  | true => simp [command, Processor.perform, Processor.withKey, ofInt?_val]; rfl
  | false => simp [command, Processor.perform, Processor.withKey, ofInt?_val]; rfl

/-- Transitions are no more than commands to press and to release keys that exist. -/
theorem performAll_commands (p : Processor) (transitions : List Transition) :
    p.performAll (transitions.map command) =
      { p with
        machine := { p.machine with
          keypad := transitions.foldl (fun keypad transition => transition.apply keypad)
            p.machine.keypad } } ∧
    ∀ answer ∈ p.answers (transitions.map command), answer = .ok .done := by
  induction transitions generalizing p with
  | nil => exact ⟨rfl, by simp [Processor.answers]⟩
  | cons transition rest ih =>
      obtain ⟨hafter, hanswers⟩ := ih (p.perform transition.command).2
      rw [List.map_cons, Processor.answers, List.forall_mem_cons]
      refine ⟨?_, ?_, hanswers⟩
      · rw [perform_command] at hafter
        simpa [Processor.performAll, perform_command] using hafter
      · rw [perform_command]

end Transition

namespace WindowEvent

/-- What an event says of a key of the keyboard: that it is down, or up, or nothing. -/
def state? (key : KeyboardKey) : WindowEvent → Option Bool
  | keyDown pressed => if pressed = key then some true else none
  | keyUp released => if released = key then some false else none
  | quit | other => none

theorem transition?_bind_state? (event : WindowEvent) (k : Key) :
    event.transition?.bind (Transition.state? k) = event.state? (.standingFor k) := by
  have hkey (key : KeyboardKey) (down : Bool) :
      (key.keypadKey?.map (⟨·, down⟩ : Key → Transition)).bind (Transition.state? k) =
        if key = .standingFor k then some down else none := by
    cases hstands : key.keypadKey? with
    | none =>
        have hnot : key ≠ .standingFor k := fun hkey => by
          rw [(KeyboardKey.keypadKey?_eq_some_iff key k).mpr hkey] at hstands
          cases hstands
        rw [if_neg hnot]
        rfl
    | some struck =>
        have hiff : struck = k ↔ key = .standingFor k := by
          rw [← KeyboardKey.keypadKey?_eq_some_iff, hstands, Option.some.injEq]
        simp [Transition.state?, hiff]
  cases event with
  | keyDown key => exact hkey key true
  | keyUp key => exact hkey key false
  | quit => rfl
  | other => rfl

theorem closes_iff (event : WindowEvent) :
    event.closes = true ↔ event = .quit ∨ event = .keyDown .escape := by
  cases event with
  | keyDown key => cases key <;> simp [closes]
  | keyUp key => simp [closes]
  | quit => simp [closes]
  | other => simp [closes]

/-- The events of some frames without those that come in their frame with or behind
one that closes the window. -/
def surviving (frames : List (List WindowEvent)) : List WindowEvent :=
  frames.flatMap fun events => events.takeWhile (!·.closes)

theorem flatMap_frameTransitions (frames : List (List WindowEvent)) :
    frames.flatMap frameTransitions = (surviving frames).filterMap transition? := by
  rw [surviving, List.filterMap_flatMap]
  rfl

/-- The last event of a key decides, of those that survive. -/
theorem get_foldl_frameTransitions (frames : List (List WindowEvent)) (keypad : Keypad) (k : Key) :
    ((frames.flatMap frameTransitions).foldl (fun keypad transition => transition.apply keypad)
        keypad).get k =
      ((surviving frames).filterMap (·.state? (.standingFor k))).getLast?.getD (keypad.get k) := by
  rw [Transition.get_foldl_apply, flatMap_frameTransitions, List.filterMap_filterMap]
  simp only [transition?_bind_state?]

/-- In frames that leave the window open all events survive. -/
theorem surviving_of_staysOpen {frames : List (List WindowEvent)}
    (hopen : ∀ events ∈ frames, staysOpen events = true) :
    surviving frames = frames.flatten := by
  have hall : frames.map (fun events => events.takeWhile (!·.closes)) = frames := by
    refine (List.map_congr_left fun events hmem => ?_).trans (List.map_id frames)
    exact List.takeWhile_eq_self_iff.mpr (by simpa [staysOpen] using hopen events hmem)
  rw [surviving, List.flatMap_def, hall]

end WindowEvent

theorem staysOpen_eq_false_iff (events : List WindowEvent) :
    staysOpen events = false ↔ .quit ∈ events ∨ .keyDown .escape ∈ events := by
  simp only [staysOpen, Bool.not_eq_false', List.any_eq_true, WindowEvent.closes_iff]
  constructor
  · rintro ⟨event, hmem, rfl | rfl⟩
    · exact .inl hmem
    · exact .inr hmem
  · rintro (hquit | hescape)
    · exact ⟨_, hquit, .inl rfl⟩
    · exact ⟨_, hescape, .inr rfl⟩

theorem staysOpen_iff (events : List WindowEvent) :
    staysOpen events = true ↔ .quit ∉ events ∧ .keyDown .escape ∉ events := by
  rw [← Bool.not_eq_false, staysOpen_eq_false_iff, not_or]

namespace Session

variable {τ : Type}

theorem takeEvents_eq (host : Host τ) (events : List WindowEvent) :
    takeEvents host events = { host with
      processor :=
        host.processor.performAll ((frameTransitions events).map Transition.command) } := by
  rw [(Transition.performAll_commands host.processor (frameTransitions events)).1]
  rfl

theorem foldl_takeEvents (host : Host τ) (frames : List (List WindowEvent)) :
    frames.foldl takeEvents host = { host with
      processor :=
        host.processor.performAll ((frames.flatMap frameTransitions).map Transition.command) } := by
  induction frames generalizing host with
  | nil => rfl
  | cons events rest ih =>
      rw [List.foldl_cons, ih, takeEvents_eq, List.flatMap_cons, List.map_append,
        Processor.performAll_append]

/-- After some frames a key of the keypad is down if the last thing that happened to its key of the
keyboard, of what no closing of the window has swallowed, was that it went down; if nothing
happened to it, it is as it was. The frames do nothing else, nothing that they ask for is refused,
and while the window stays open it does not matter how the events are cut into frames. -/
theorem keypad_follows_last_events (host : Host τ) (frames : List (List WindowEvent)) :
    let commands := (frames.flatMap frameTransitions).map Transition.command
    let after := frames.foldl takeEvents host
    (∀ (key : KeyboardKey) (k : Key), key.keypadKey? = some k ↔ key = .standingFor k) ∧
    (∀ k, after.processor.machine.keypad.get k =
      ((WindowEvent.surviving frames).filterMap (·.state? (.standingFor k))).getLast?.getD
        (host.processor.machine.keypad.get k)) ∧
    (∀ events, staysOpen events = false ↔ .quit ∈ events ∨ .keyDown .escape ∈ events) ∧
    after = { host with processor := host.processor.performAll commands } ∧
    (∀ answer ∈ host.processor.answers commands, answer = .ok .done) ∧
    after.processor = { host.processor with
      machine := { host.processor.machine with keypad := after.processor.machine.keypad } } ∧
    ∀ others, (∀ events ∈ frames ++ others, staysOpen events = true) →
      others.flatten = frames.flatten → others.foldl takeEvents host = after := by
  intro commands after
  have hafter : after = { host with processor := host.processor.performAll commands } :=
    foldl_takeEvents host frames
  obtain ⟨hperformed, hanswers⟩ :=
    Transition.performAll_commands host.processor (frames.flatMap frameTransitions)
  have hprocessor : after.processor = { host.processor with
      machine := { host.processor.machine with
        keypad := (frames.flatMap frameTransitions).foldl
          (fun keypad transition => transition.apply keypad) host.processor.machine.keypad } } := by
    rw [hafter]
    exact hperformed
  refine ⟨KeyboardKey.keypadKey?_eq_some_iff, fun k => ?lastEvent, staysOpen_eq_false_iff, hafter,
    hanswers, ?keypadOnly, fun others hopen hevents => ?framing⟩
  case lastEvent =>
    rw [hprocessor]
    exact WindowEvent.get_foldl_frameTransitions frames _ k
  case keypadOnly => rw [hprocessor]
  case framing =>
    have hcut : others.flatMap frameTransitions = frames.flatMap frameTransitions := by
      rw [WindowEvent.flatMap_frameTransitions, WindowEvent.flatMap_frameTransitions,
        WindowEvent.surviving_of_staysOpen fun events hmem =>
          hopen events (List.mem_append_right _ hmem),
        WindowEvent.surviving_of_staysOpen fun events hmem =>
          hopen events (List.mem_append_left _ hmem), hevents]
    rw [foldl_takeEvents, hcut]
    exact hafter.symm

/-- The last key of a frame that Escape ends is never struck, a key beside the keypad is nothing,
and a frame more between the same events changes nothing. -/
theorem escape_swallows_later_keys :
    let host : Host ℕ :=
      ⟨.ofMachine (Machine.holding []) ⟨"cpu", "INFO"⟩, ⟨700, 0, 0⟩, ⟨60, 0, 0⟩, ⟨"chip8", "INFO"⟩⟩
    let pressed := WindowEvent.keyDown ∘ KeyboardKey.character
    let released := WindowEvent.keyUp ∘ KeyboardKey.character
    let events := [pressed 'w', pressed 'x', .other, pressed 'p', released 'w']
    let escaped := [events, [pressed 'r', .keyDown .escape, pressed 'v']].foldl takeEvents host
    escaped.processor.machine.keypad.held = [0x0, 0xD] ∧
    escaped.processor.machine.keypad.get 0xF = false ∧
    [[pressed 'w', pressed 'x'], [], [.other, pressed 'p', released 'w']].foldl takeEvents host =
      [events].foldl takeEvents host := by
  intro host pressed released events escaped
  obtain ⟨-, hkeys, -⟩ :=
    keypad_follows_last_events host [events, [pressed 'r', .keyDown .escape, pressed 'v']]
  obtain ⟨-, -, -, -, -, -, hframing⟩ := keypad_follows_last_events host [events]
  exact ⟨by decide +kernel, hkeys 0xF, hframing _ (by decide +kernel) rfl⟩

end Session

end Chip8VM
