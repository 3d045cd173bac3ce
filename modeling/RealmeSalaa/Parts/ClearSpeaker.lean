import Mathlib.Data.List.Basic
import Mathlib.Logic.Basic
import RealmeSalaa.Lib.GuardedSystem

/-!
# The speaker cleaner

`startPlaying` sets the audio parameter, makes a player and disables the switch, in this order and
with steps between them that can fail; when one does, none of it is undone. `stopPlaying` releases
the player only if it plays. So a session is all or nothing exactly as long as no step fails
(`sessions_of_reach`). A timer is no part of this: a session that starts removes the one before, so
whatever has failed, the timer that expires while a session plays is its own
(`session_of_expire`).
-/

namespace RealmeSalaa.Parts.ClearSpeaker

/-- The calls in `startPlaying` that can throw an `IOException`. -/
inductive Failure
  | openRawResourceFd
  | setDataSource
  | close
  | prepare
  deriving DecidableEq

/-- Players are numbered in the order of their creation, and a session by its player. -/
structure State where
  /-- the audio parameter -/
  status_earpiece_clean : Bool
  mMediaPlayer : Option ℕ
  created : ℕ
  /-- the players that are not released -/
  unreleased : List ℕ
  /-- those that play -/
  playing : List ℕ
  /-- `mClearSpeakerPref` -/
  enabled : Bool
  checked : Bool
  /-- the sessions whose timers are posted to `mHandler` -/
  timers : List ℕ

namespace State

variable (s : State)

/-- The player that is made, which `mMediaPlayer` is set to. -/
def newMediaPlayer : State :=
  { s with
    mMediaPlayer := some s.created
    created := s.created + 1
    unreleased := s.created :: s.unreleased }

def startPlaying (failure : Option Failure) : State × Bool :=
  let s := { s with status_earpiece_clean := true }
  let player := s.created
  let s := s.newMediaPlayer
  match failure with
  | some .openRawResourceFd | some .setDataSource | some .close => (s, false)
  | some .prepare => ({ s with enabled := false }, false)
  | none => ({ s with enabled := false, playing := player :: s.playing }, true)

def stopPlaying : State :=
  let s :=
    match s.mMediaPlayer with
    | none => s
    | some player =>
      if player ∈ s.playing then
        { s with
          playing := s.playing.filter (· ≠ player)
          unreleased := s.unreleased.filter (· ≠ player)
          mMediaPlayer := none }
      else s
  { s with status_earpiece_clean := false, enabled := true, checked := false }

/-- Whether the new value is accepted. The timers of other sessions are removed. -/
def onPreferenceChange (value : Bool) (failure : Option Failure) : State × Bool :=
  if value then
    let (s, started) := s.startPlaying failure
    if started then ({ s with timers := s.mMediaPlayer.toList }, true) else (s, false)
  else (s, false)

/-- A click on the switch. A value that is accepted is stored. -/
def toggle (value : Bool) (failure : Option Failure) : State :=
  let (s, accepted) := s.onPreferenceChange value failure
  if accepted then { s with checked := value } else s

def onStop : State := s.stopPlaying

/-- The callback that was posted for a session. -/
def expire (session : ℕ) : State := { s with timers := s.timers.erase session }.stopPlaying

end State

/-! ## Runs -/

inductive Action
  | toggle (value : Bool) (failure : Option Failure)
  | expire (session : ℕ)
  | onStop

/-- Only a switch that is enabled can be clicked. -/
def clearSpeaker : GuardedSystem State Action where
  guard s
    | .toggle _ _ => s.enabled = true
    | .expire session => session ∈ s.timers
    | .onStop => True
  next s
    | .toggle value failure => s.toggle value failure
    | .expire session => s.expire session
    | .onStop => s.onStop

instance (s : State) (a : Action) : Decidable (clearSpeaker.guard s a) := by
  cases a <;> unfold clearSpeaker <;> dsimp only <;> infer_instance

/-- After `onCreatePreferences`, with the stored value of the switch. -/
def State.initial (checked : Bool) : State := ⟨false, none, 0, [], [], true, checked, []⟩

/-- `startPlaying` is called, and fails. -/
def Action.Fails : Action → Prop
  | .toggle value failure => value = true ∧ failure ≠ none
  | .expire _ | .onStop => False

instance (a : Action) : Decidable a.Fails := by
  cases a <;> unfold Action.Fails <;> infer_instance

/-- `stopPlaying` is called. -/
def Action.Stops : Action → Prop
  | .toggle _ _ => False
  | .expire _ | .onStop => True

/-! ## What plays -/

variable {s : State} {a : Action}

/-- What plays is the player of `mMediaPlayer`, on a switch that is disabled, with its timer. -/
def Attended (s : State) : Prop :=
  ∀ player ∈ s.playing, s.playing = [player] ∧ s.mMediaPlayer = some player ∧
    s.timers = [player] ∧ s.enabled = false

theorem Attended.playing_eq_nil (h : Attended s) (henabled : s.enabled = true) : s.playing = [] := by
  refine List.eq_nil_iff_forall_not_mem.2 fun player hplayer => ?_
  obtain ⟨-, -, -, hdisabled⟩ := h player hplayer
  exact absurd (hdisabled.symm.trans henabled) Bool.false_ne_true

theorem playing_stopPlaying (h : ∀ player ∈ s.playing, s.playing = [player] ∧
    s.mMediaPlayer = some player) : s.stopPlaying.playing = [] := by
  unfold State.stopPlaying
  cases hplaying : s.playing with
  | nil =>
    cases s.mMediaPlayer with
    | none => exact hplaying
    | some player =>
      dsimp only
      rw [if_neg List.not_mem_nil]
      exact hplaying
  | cons player players =>
    obtain ⟨hsingle, hplayer⟩ := h player (by rw [hplaying]; exact List.mem_cons_self)
    rw [hplayer, ← hplaying, hsingle]
    simp

/-- No other player is left unreleased than what plays, and the parameter tells whether one plays. -/
structure Clean (s : State) : Prop where
  unreleased : s.unreleased = s.playing
  parameter : s.status_earpiece_clean = true ↔ s.playing ≠ []

theorem Clean.unreleased_stopPlaying (hclean : Clean s) (h : ∀ player ∈ s.playing,
    s.playing = [player] ∧ s.mMediaPlayer = some player) : s.stopPlaying.unreleased = [] := by
  have hplaying := playing_stopPlaying h
  unfold State.stopPlaying at hplaying ⊢
  cases hplayer : s.mMediaPlayer with
  | none =>
    rw [hplayer] at hplaying
    exact hclean.unreleased.trans hplaying
  | some player =>
    rw [hplayer] at hplaying
    dsimp only at hplaying ⊢
    split_ifs at hplaying ⊢
    · show s.unreleased.filter _ = []
      rw [hclean.unreleased]
      exact hplaying
    · exact hclean.unreleased.trans hplaying

/-- A stop, with any timers. -/
theorem Attended.stopPlaying (h : Attended s) (timers : List ℕ) :
    ({ s with timers := timers } : State).stopPlaying.playing = [] ∧
      (Clean s → ({ s with timers := timers } : State).stopPlaying.unreleased = []) := by
  have hplayer : ∀ player ∈ s.playing, s.playing = [player] ∧ s.mMediaPlayer = some player :=
    fun player hplayer => ⟨(h player hplayer).1, (h player hplayer).2.1⟩
  refine ⟨playing_stopPlaying hplayer, fun hclean => ?_⟩
  exact Clean.unreleased_stopPlaying ⟨hclean.unreleased, hclean.parameter⟩ hplayer

theorem attended_of_playing_eq_nil (h : s.playing = []) : Attended s := by
  intro player hplayer
  rw [h] at hplayer
  cases hplayer

theorem Attended.next (h : Attended s) (hg : clearSpeaker.guard s a) :
    Attended (clearSpeaker.next s a) := by
  cases a with
  | toggle value failure =>
    have hnil := h.playing_eq_nil hg
    cases value with
    | false => exact h
    | true =>
      cases failure with
      | some failure =>
        apply attended_of_playing_eq_nil
        cases failure <;> exact hnil
      | none =>
        intro player hplayer
        have hnew : (clearSpeaker.next s (.toggle true none)).playing = [s.created] :=
          congrArg (s.created :: ·) hnil
        rw [hnew] at hplayer
        rw [List.mem_singleton.1 hplayer]
        exact ⟨hnew, rfl, rfl, rfl⟩
  | expire session => exact attended_of_playing_eq_nil (h.stopPlaying _).1
  | onStop => exact attended_of_playing_eq_nil (h.stopPlaying s.timers).1

theorem attended_of_reach {P : State → Action → Prop} {checked : Bool}
    (h : clearSpeaker.Reach P (.initial checked) s) : Attended s :=
  h.invariant (attended_of_playing_eq_nil rfl) fun _ _ hs hg _ => hs.next hg

theorem Attended.session_eq (h : Attended s) {session player : ℕ} (hsession : session ∈ s.timers)
    (hplayer : player ∈ s.playing) : player = session := by
  obtain ⟨-, -, htimers, -⟩ := h player hplayer
  rw [htimers] at hsession
  exact (List.mem_singleton.1 hsession).symm

/-- Whatever has failed, a timer that expires while a session plays is that session's. -/
theorem session_of_expire {P : State → Action → Prop} {checked : Bool}
    (h : clearSpeaker.Reach P (.initial checked) s) {session player : ℕ}
    (hg : clearSpeaker.guard s (.expire session)) (hplayer : player ∈ s.playing) :
    player = session := (attended_of_reach h).session_eq hg hplayer

/-! ## All or nothing -/

theorem Clean.next (hclean : Clean s) (h : Attended s) (hg : clearSpeaker.guard s a)
    (hfails : ¬a.Fails) : Clean (clearSpeaker.next s a) := by
  cases a with
  | toggle value failure =>
    cases value with
    | false => exact hclean
    | true =>
      cases failure with
      | some failure => exact absurd ⟨rfl, Option.some_ne_none failure⟩ hfails
      | none =>
        exact ⟨congrArg (s.created :: ·) hclean.unreleased,
          iff_of_true rfl (List.cons_ne_nil s.created s.playing)⟩
  | expire session =>
    obtain ⟨hplaying, hunreleased⟩ := h.stopPlaying (s.timers.erase session)
    exact ⟨(hunreleased hclean).trans hplaying.symm, iff_of_false Bool.false_ne_true (· hplaying)⟩
  | onStop =>
    obtain ⟨hplaying, hunreleased⟩ := h.stopPlaying s.timers
    exact ⟨(hunreleased hclean).trans hplaying.symm, iff_of_false Bool.false_ne_true (· hplaying)⟩

/-- The parameter tells whether a session plays, and there is at most one unreleased player. -/
structure Good (s : State) : Prop where
  parameter : s.status_earpiece_clean = true ↔ s.playing ≠ []
  single : s.unreleased.length ≤ 1

/-- What an action leaves: a good state, in which a stop has left no unreleased player and a
`startPlaying` that fails has changed neither the parameter nor the switch. A timer stops its own
session only. -/
structure Keeps (s : State) (a : Action) : Prop where
  good : Good (clearSpeaker.next s a)
  released : a.Stops → (clearSpeaker.next s a).unreleased = []
  undone : a.Fails → (clearSpeaker.next s a).status_earpiece_clean = s.status_earpiece_clean ∧
    (clearSpeaker.next s a).enabled = s.enabled
  own : ∀ session, a = .expire session → ∀ player ∈ s.playing, player = session

theorem Clean.good (hclean : Clean s) (h : Attended s) : Good s := by
  refine ⟨hclean.parameter, ?_⟩
  rw [hclean.unreleased]
  cases hplaying : s.playing with
  | nil => exact Nat.zero_le 1
  | cons player players =>
    obtain ⟨hsingle, -⟩ := h player (by rw [hplaying]; exact List.mem_cons_self)
    rw [← hplaying, hsingle]
    exact Nat.le_refl 1

/-- A failed start leaves the parameter on with nothing playing. -/
theorem status_of_fails (hfails : a.Fails) :
    (clearSpeaker.next s a).status_earpiece_clean = true ∧
      (clearSpeaker.next s a).playing = s.playing := by
  cases a with
  | toggle value failure =>
    obtain ⟨rfl, hfailure⟩ := hfails
    obtain ⟨failure, rfl⟩ := Option.ne_none_iff_exists'.1 hfailure
    cases failure <;> exact ⟨rfl, rfl⟩
  | expire session => exact hfails.elim
  | onStop => exact hfails.elim

theorem keeps_iff (hclean : Clean s) (h : Attended s) (hg : clearSpeaker.guard s a) :
    Keeps s a ↔ ¬a.Fails := by
  constructor
  · rintro hkeeps hfails
    obtain ⟨hon, hsame⟩ := status_of_fails (s := s) hfails
    have hnil : s.playing = [] := by
      cases a with
      | toggle value failure => exact h.playing_eq_nil hg
      | expire session => exact hfails.elim
      | onStop => exact hfails.elim
    exact hkeeps.good.parameter.1 hon (hsame.trans hnil)
  · intro hfails
    refine ⟨(hclean.next h hg hfails).good (h.next hg), fun hstops => ?_,
      fun hyes => absurd hyes hfails, ?_⟩
    · cases a with
      | toggle value failure => exact hstops.elim
      | expire session => exact (h.stopPlaying _).2 hclean
      | onStop => exact (h.stopPlaying s.timers).2 hclean
    · rintro session rfl player hplayer
      exact h.session_eq hg hplayer

/-- **Sessions.** In every run in which no `startPlaying` fails, the parameter tells whether a session
plays and no player is left behind; and from a state of such a run, an action keeps all that is
promised if and only if it is not a `startPlaying` that fails. -/
theorem sessions_of_reach {checked : Bool}
    (h : clearSpeaker.Reach (fun _ a => ¬a.Fails) (.initial checked) s) :
    Good s ∧ ∀ a, clearSpeaker.guard s a → (Keeps s a ↔ ¬a.Fails) := by
  have hattended : Attended s := attended_of_reach h
  have hclean : Clean s ∧ Attended s := by
    refine h.invariant (I := fun s => Clean s ∧ Attended s) ?_ fun s a hs hg hfails =>
      ⟨hs.1.next hs.2 hg hfails, hs.2.next hg⟩
    exact ⟨⟨rfl, by simp [State.initial]⟩, attended_of_playing_eq_nil rfl⟩
  exact ⟨hclean.1.good hattended, fun a hg => keeps_iff hclean.1 hattended hg⟩

/-- A session that is stopped, and one that runs out. -/
theorem sessions_of_reach_sample :
    let s := clearSpeaker.exec (.initial false) [.toggle true none, .onStop, .toggle true none,
      .expire 1, .toggle false (some .prepare)]
    Good s ∧ ∀ a, clearSpeaker.guard s a → (Keeps s a ↔ ¬a.Fails) :=
  sessions_of_reach (GuardedSystem.reach_exec (by decide))

/-- `prepare` fails: the parameter is on, the switch disabled, and the player is never released. -/
theorem player_left_behind :
    let run : List Action := [.toggle true (some .prepare), .onStop, .toggle true none]
    let after := fun n => clearSpeaker.exec (.initial false) (run.take n)
    clearSpeaker.Legal (fun _ _ => True) (.initial false) run ∧
      (after 1).status_earpiece_clean = true ∧ (after 1).playing = [] ∧ (after 1).enabled = false ∧
      (after 2).unreleased = [0] ∧ (after 3).unreleased = [1, 0] := by
  decide

end RealmeSalaa.Parts.ClearSpeaker
