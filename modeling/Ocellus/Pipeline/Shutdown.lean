import Ocellus.Base.Transition
import Ocellus.Base.Text
import Ocellus.Pipeline.RingBuffer

/-!
# Startup and shutdown (`main.rs`, `run_capture`, `start_analysis`)

The main task, the capture thread and the analyzer thread, as a transition
system in which they take turns in any order. Packets are opaque; scoring and
forwarding them affects no one's control flow.

`validUri` is the address check of the gRPC library (`Channel::from_shared`).
Spawning threads is assumed to succeed.
-/

namespace Ocellus

namespace Shutdown

universe u

variable {τ : Type u}

/-! ## Configuration -/

/-- The options that decide which threads there are. -/
structure Config where
  listDevices : Bool
  channelCapacity : Nat
  grpcAddr : Option Str
  testSend : Bool

/-- What the main task does up to spawning the capture thread. -/
inductive Startup where
  /-- It returns, or panics. -/
  | exits
  /-- It runs without a capture thread. -/
  | testSend
  | capture
  deriving DecidableEq

/-- The largest capacity of a tokio channel. -/
def maxPermits : Nat := 2 ^ 61 - 1

/-- The capture thread is started: none of the options, and no invalid one, keeps
the main task from it. -/
def Config.StartsCapture (validUri : Str → Bool) (cfg : Config) : Prop :=
  cfg.listDevices = false ∧ validUri (cfg.grpcAddr.getD "http://127.0.0.1:50051".toList) = true ∧
    (cfg.channelCapacity ≠ 0 ∧ cfg.channelCapacity ≤ maxPermits) ∧ cfg.testSend = false

def Config.startup (validUri : Str → Bool) (cfg : Config) : Startup :=
  if cfg.listDevices then .exits
  else if !validUri (cfg.grpcAddr.getD "http://127.0.0.1:50051".toList) then .exits
  else if cfg.channelCapacity = 0 ∨ maxPermits < cfg.channelCapacity then .exits
  else if cfg.testSend then .testSend
  else .capture

/-! ## States -/

/-- Where the main task is. -/
inductive Main where
  | start
  /-- In `ctrl_c().await`. -/
  | ctrlC
  /-- About to cancel the tasks. -/
  | cancel
  /-- About to set the shutdown flag. -/
  | setShutdown
  /-- In `stream_handle.await`. -/
  | awaitStream
  /-- In `heartbeat_handle.await`. -/
  | awaitHeartbeat
  /-- In `handle.join()`. -/
  | joinCapture
  /-- About to call `baseline.persist()`. -/
  | persist
  | exited
  deriving DecidableEq

/-- Where the capture thread is. -/
inductive Capture where
  | notStarted
  /-- About to create the buffer and the analyzer thread. -/
  | spawning
  /-- In `run_capture`, opening the device. -/
  | opening
  /-- At the top of the capture loop. -/
  | check
  /-- In `next_packet`. -/
  | next
  /-- `run_capture` has returned and dropped its handle; in `join()`. -/
  | join
  | done
  deriving DecidableEq

/-- Where the analyzer thread is. -/
inductive Analyzer (τ : Type u) : Type u where
  | notStarted
  /-- At the top of the loop. -/
  | drain
  /-- Forwarding what it has scored. -/
  | forward (scored : List τ)
  /-- In `pop_blocking`, about to look at the buffer. -/
  | pop
  /-- In `pop_blocking`, waiting on the condition variable. -/
  | wait
  | done

structure System (τ : Type u) : Type u where
  main : Main
  capture : Capture
  analyzer : Analyzer τ
  buffer : RingBuffer τ
  shutdown : Bool
  cancelled : Bool
  streamDone : Bool
  heartbeatDone : Bool

/-- `cvar.notify_one`: the analyzer, if it waits, wakes up. -/
def notify : Analyzer τ → Analyzer τ
  | .wait => .pop
  | a => a

/-! ## Steps -/

/-- The main task. -/
inductive MainStep (startup : Startup) : System τ → System τ → Prop where
  | exits {s : System τ} : s.main = .start → startup = .exits →
      MainStep startup s { s with main := .exited }
  | testSend {s : System τ} : s.main = .start → startup = .testSend →
      MainStep startup s { s with main := .ctrlC }
  | capture {s : System τ} : s.main = .start → startup = .capture →
      MainStep startup s { s with main := .ctrlC, capture := .spawning }
  | ctrlC {s : System τ} : s.main = .ctrlC → MainStep startup s { s with main := .cancel }
  /-- The signal handler cannot be installed. -/
  | ctrlCFails {s : System τ} : s.main = .ctrlC → MainStep startup s { s with main := .exited }
  | cancel {s : System τ} : s.main = .cancel →
      MainStep startup s { s with main := .setShutdown, cancelled := true }
  | setShutdown {s : System τ} : s.main = .setShutdown →
      MainStep startup s { s with main := .awaitStream, shutdown := true }
  | awaitStream {s : System τ} : s.main = .awaitStream → s.streamDone = true →
      MainStep startup s { s with main := .awaitHeartbeat }
  | awaitHeartbeat {s : System τ} : s.main = .awaitHeartbeat → s.heartbeatDone = true →
      MainStep startup s { s with main := .joinCapture }
  /-- There is no capture thread to join, or it is done. -/
  | joinCapture {s : System τ} : s.main = .joinCapture →
      s.capture = .notStarted ∨ s.capture = .done → MainStep startup s { s with main := .persist }
  | persist {s : System τ} : s.main = .persist → MainStep startup s { s with main := .exited }

/-- The stream and the heartbeat task. -/
inductive TaskStep : System τ → System τ → Prop where
  /-- Cancelled, or the RPC could not be opened, or the channel is closed. -/
  | stream {s : System τ} : s.main ≠ .start → TaskStep s { s with streamDone := true }
  | heartbeat {s : System τ} : s.cancelled = true → TaskStep s { s with heartbeatDone := true }

/-- The capture thread. -/
inductive CaptureStep : System τ → System τ → Prop where
  | spawn {s : System τ} : s.capture = .spawning →
      CaptureStep s { s with capture := .opening, analyzer := .drain, buffer := .new 4096 }
  | opened {s : System τ} : s.capture = .opening → CaptureStep s { s with capture := .check }
  /-- No such device, or it cannot be activated, or the filter does not compile. -/
  | openFails {s : System τ} : s.capture = .opening → CaptureStep s { s with capture := .join }
  | goOn {s : System τ} : s.capture = .check → s.shutdown = false →
      CaptureStep s { s with capture := .next }
  | shutdown {s : System τ} : s.capture = .check → s.shutdown = true →
      CaptureStep s { s with capture := .join }
  | packet {s : System τ} {p : τ} {dropped : Nat} {buffer : RingBuffer τ} : s.capture = .next →
      s.buffer.push p = .ok (dropped, buffer) →
      CaptureStep s { s with capture := .check, buffer, analyzer := notify s.analyzer }
  | timeout {s : System τ} : s.capture = .next → CaptureStep s { s with capture := .check }
  | noMorePackets {s : System τ} : s.capture = .next → CaptureStep s { s with capture := .join }
  | fatal {s : System τ} : s.capture = .next → CaptureStep s { s with capture := .join }
  | joined {s : System τ} : s.capture = .join → s.analyzer = .done →
      CaptureStep s { s with capture := .done }

/-- The analyzer thread. -/
inductive AnalyzerStep : System τ → System τ → Prop where
  | batch {s : System τ} : s.analyzer = .drain → (s.buffer.drainBatch 64).1 ≠ [] →
      AnalyzerStep s { s with
        analyzer := .forward (s.buffer.drainBatch 64).1, buffer := (s.buffer.drainBatch 64).2 }
  | empty {s : System τ} : s.analyzer = .drain → (s.buffer.drainBatch 64).1 = [] →
      AnalyzerStep s { s with analyzer := .pop, buffer := (s.buffer.drainBatch 64).2 }
  /-- Accepted by the channel, or dropped. -/
  | forward {s : System τ} {p : τ} {ps : List τ} : s.analyzer = .forward (p :: ps) →
      AnalyzerStep s { s with analyzer := .forward ps }
  | forwarded {s : System τ} : s.analyzer = .forward [] → AnalyzerStep s { s with analyzer := .drain }
  | item {s : System τ} {p : τ} : s.analyzer = .pop → s.buffer.popBlocking.1 = .item p →
      AnalyzerStep s { s with analyzer := .forward [p], buffer := s.buffer.popBlocking.2 }
  | closed {s : System τ} : s.analyzer = .pop → s.buffer.popBlocking.1 = .closed →
      AnalyzerStep s { s with analyzer := .done }
  | wait {s : System τ} : s.analyzer = .pop → s.buffer.popBlocking.1 = .wait →
      AnalyzerStep s { s with analyzer := .wait }
  /-- A condition variable may wake up without being notified. -/
  | spurious {s : System τ} : s.analyzer = .wait → AnalyzerStep s { s with analyzer := .pop }

def start : System τ where
  main := .start
  capture := .notStarted
  analyzer := .notStarted
  buffer := .new 4096
  shutdown := false
  cancelled := false
  streamDone := false
  heartbeatDone := false

/-- Everybody takes turns, until the main task is gone and the process with it. -/
def system (τ : Type u) (startup : Startup) : TransitionSystem (System τ) where
  init s := s = start
  step s s' := s.main ≠ .exited ∧
    (MainStep startup s s' ∨ TaskStep s s' ∨ CaptureStep s s' ∨ AnalyzerStep s s')

/-! ## The property -/

/-- The capture thread waits for the analyzer, the analyzer for a packet, and the
main task has not come to `baseline.persist()`. -/
def Waiting (s : System τ) : Prop :=
  s.capture = .join ∧ (s.analyzer = .pop ∨ s.analyzer = .wait) ∧
    s.main ≠ .persist ∧ s.main ≠ .exited

/-- Shutdown never deadlocks: whenever `run_capture` has returned and the capture
thread joins the analyzer, the buffer is closed; and no reachable state has all
three waiting for ever. -/
def NeverDeadlocks (τ : Type u) (startup : Startup) : Prop :=
  (∀ s, (system τ startup).Reachable s → s.capture = .join → s.buffer.closed = true) ∧
    ¬ ∃ s, (system τ startup).Reachable s ∧ (system τ startup).Forever Waiting s

/-! ## Nobody closes the buffer -/

theorem Config.startup_eq_capture {validUri : Str → Bool} {cfg : Config} :
    cfg.startup validUri = .capture ↔ cfg.StartsCapture validUri := by
  unfold Config.startup Config.StartsCapture
  cases cfg.listDevices with
  | true => simp
  | false =>
    cases validUri (cfg.grpcAddr.getD "http://127.0.0.1:50051".toList) with
    | false => simp
    | true =>
      by_cases hcap : cfg.channelCapacity = 0 ∨ maxPermits < cfg.channelCapacity
      · simp only [hcap, if_true]
        simp
        omega
      · rw [not_or, Nat.not_lt] at hcap
        cases cfg.testSend with
        | true => simp [hcap, Nat.not_lt.mpr hcap.2]
        | false => simp [hcap, Nat.not_lt.mpr hcap.2]

variable {startup : Startup} {s s' : System τ}

/-- The buffer is open, so nobody who waits for it to be closed gets on: the
analyzer does not end, nor does the capture thread, and a main task with a
capture thread to join does not come to `baseline.persist()`. -/
structure Open (s : System τ) : Prop where
  closed : s.buffer.closed = false
  analyzer : s.analyzer ≠ .done
  capture : s.capture ≠ .done
  main : s.main = .persist → s.capture = .notStarted
  fresh : s.main = .start → s.capture = .notStarted

theorem open_start : Open (start : System τ) := ⟨rfl, nofun, nofun, nofun, fun _ => rfl⟩

theorem Open.mainStep (h : Open s) (hstep : MainStep startup s s') : Open s' := by
  obtain ⟨hclosed, hanalyzer, hcapture, hmain, hfresh⟩ := h
  cases hstep with
  | capture hstart _ => exact ⟨hclosed, hanalyzer, nofun, nofun, nofun⟩
  | joinCapture _ hjoin =>
    refine ⟨hclosed, hanalyzer, hcapture, fun _ => ?_, nofun⟩
    rcases hjoin with hnone | hdone
    · exact hnone
    · exact absurd hdone hcapture
  | _ => exact ⟨hclosed, hanalyzer, hcapture, nofun, nofun⟩

theorem Open.taskStep (h : Open s) (hstep : TaskStep s s') : Open s' := by
  obtain ⟨hclosed, hanalyzer, hcapture, hmain, hfresh⟩ := h
  cases hstep <;> exact ⟨hclosed, hanalyzer, hcapture, hmain, hfresh⟩

theorem notify_ne_done {a : Analyzer τ} (h : a ≠ .done) : notify a ≠ .done := by
  cases a with
  | done => exact absurd rfl h
  | _ => exact nofun

/-- The capture thread, once started, only goes on. -/
theorem Open.captureStep (h : Open s) (hstep : CaptureStep s s') : Open s' := by
  obtain ⟨hclosed, hanalyzer, hcapture, hmain, hfresh⟩ := h
  have hstarted : s.capture ≠ .notStarted → ∀ c : Capture,
      (s.main = .persist → c = .notStarted) ∧ (s.main = .start → c = .notStarted) :=
    fun hne c => ⟨fun hm => absurd (hmain hm) hne, fun hm => absurd (hfresh hm) hne⟩
  cases hstep with
  | spawn hc =>
    obtain ⟨hm, hf⟩ := hstarted (by rw [hc]; exact nofun) .opening
    exact ⟨rfl, nofun, nofun, hm, hf⟩
  | opened hc | openFails hc | goOn hc _ | shutdown hc _ | timeout hc | noMorePackets hc
  | fatal hc =>
    obtain ⟨hm, hf⟩ := hstarted (by rw [hc]; exact nofun) _
    exact ⟨hclosed, hanalyzer, nofun, hm, hf⟩
  | packet hc hpush =>
    obtain ⟨hm, hf⟩ := hstarted (by rw [hc]; exact nofun) .check
    exact ⟨(RingBuffer.push_closed hpush).trans hclosed, notify_ne_done hanalyzer, nofun, hm, hf⟩
  | joined _ hdone => exact absurd hdone hanalyzer

theorem Open.analyzerStep (h : Open s) (hstep : AnalyzerStep s s') : Open s' := by
  obtain ⟨hclosed, hanalyzer, hcapture, hmain, hfresh⟩ := h
  cases hstep with
  | item _ _ =>
    exact ⟨(RingBuffer.popBlocking_closed s.buffer).trans hclosed, nofun, hcapture, hmain, hfresh⟩
  | closed _ hpop => exact absurd hpop (RingBuffer.popBlocking_ne_closed hclosed)
  | _ => exact ⟨hclosed, nofun, hcapture, hmain, hfresh⟩

theorem Open.step (h : Open s) (hstep : (system τ startup).step s s') : Open s' := by
  obtain ⟨-, hmain | htask | hcapture | hanalyzer⟩ := hstep
  · exact h.mainStep hmain
  · exact h.taskStep htask
  · exact h.captureStep hcapture
  · exact h.analyzerStep hanalyzer

/-- In every reachable state the buffer is open. -/
theorem open_of_reachable (h : (system τ startup).Reachable s) : Open s := by
  refine h.invariant ?_ fun s s' hs hstep => hs.step hstep
  rintro s rfl
  exact open_start

/-! ## The deadlock -/

/-- The capture thread joins an analyzer that waits on an open, empty buffer, and
the main task, past `ctrl_c`, has a capture thread to join. -/
structure Stuck (s : System τ) : Prop where
  capture : s.capture = .join
  analyzer : s.analyzer = .pop ∨ s.analyzer = .wait
  buffer : s.buffer.buf = [] ∧ s.buffer.closed = false
  main : s.main ≠ .start ∧ s.main ≠ .ctrlC ∧ s.main ≠ .persist ∧ s.main ≠ .exited

theorem Stuck.step (h : Stuck s) (hstep : (system τ startup).step s s') : Stuck s' := by
  obtain ⟨hcapture, hanalyzer, hbuffer, hstart, hctrlC, hpersist, hexited⟩ := h
  have hpop : s.buffer.popBlocking.1 = .wait := by
    rw [RingBuffer.popBlocking_of_nil hbuffer.1, hbuffer.2]
    rfl
  -- every step that is still possible leaves all three waiting
  obtain ⟨-, hmain | htask | hcap | hana⟩ := hstep
  · cases hmain with
    | exits hm _ => exact absurd hm hstart
    | testSend hm _ => exact absurd hm hstart
    | capture hm _ => exact absurd hm hstart
    | ctrlC hm => exact absurd hm hctrlC
    | ctrlCFails hm => exact absurd hm hctrlC
    | cancel _ => exact ⟨hcapture, hanalyzer, hbuffer, nofun, nofun, nofun, nofun⟩
    | setShutdown _ => exact ⟨hcapture, hanalyzer, hbuffer, nofun, nofun, nofun, nofun⟩
    | awaitStream _ _ => exact ⟨hcapture, hanalyzer, hbuffer, nofun, nofun, nofun, nofun⟩
    | awaitHeartbeat _ _ => exact ⟨hcapture, hanalyzer, hbuffer, nofun, nofun, nofun, nofun⟩
    | joinCapture _ hjoin =>
      rw [hcapture] at hjoin
      rcases hjoin with hjoin | hjoin <;> cases hjoin
    | persist hm => exact absurd hm hpersist
  · cases htask <;> exact ⟨hcapture, hanalyzer, hbuffer, hstart, hctrlC, hpersist, hexited⟩
  · cases hcap with
    | joined _ hdone =>
      rw [hdone] at hanalyzer
      rcases hanalyzer with hanalyzer | hanalyzer <;> cases hanalyzer
    | spawn hc | opened hc | openFails hc | goOn hc _ | shutdown hc _ | packet hc _ | timeout hc
    | noMorePackets hc | fatal hc =>
      rw [hcapture] at hc
      cases hc
  · cases hana with
    | wait _ _ => exact ⟨hcapture, .inr rfl, hbuffer, hstart, hctrlC, hpersist, hexited⟩
    | spurious _ => exact ⟨hcapture, .inl rfl, hbuffer, hstart, hctrlC, hpersist, hexited⟩
    | item _ hitem =>
      rw [hpop] at hitem
      cases hitem
    | closed _ hclosed =>
      rw [hpop] at hclosed
      cases hclosed
    | batch ha _ | empty ha _ | forward ha | forwarded ha =>
      rw [ha] at hanalyzer
      rcases hanalyzer with hanalyzer | hanalyzer <;> cases hanalyzer

theorem Stuck.forever (h : Stuck s) : (system τ startup).Forever Waiting s := by
  refine TransitionSystem.forever_of_invariant (fun s s' hs hstep => hs.step hstep) ?_ h
  rintro s ⟨hcapture, hanalyzer, -, -, -, hpersist, hexited⟩
  exact ⟨hcapture, hanalyzer, hpersist, hexited⟩

/-- On Ctrl-C with no packet in sight: the analyzer waits, the main task sets the
flag, and the capture thread leaves its loop. -/
theorem exists_stuck (τ : Type u) : ∃ s, (system τ .capture).Reachable s ∧ Stuck s := by
  have h₀ : (system τ .capture).Reachable start := .of_init rfl
  have h₁ := h₀.step ⟨nofun, .inl (.capture rfl rfl)⟩
  have h₂ := h₁.step ⟨nofun, .inr (.inr (.inl (.spawn rfl)))⟩
  have h₃ := h₂.step ⟨nofun, .inr (.inr (.inr (.empty rfl rfl)))⟩
  have h₄ := h₃.step ⟨nofun, .inr (.inr (.inl (.opened rfl)))⟩
  have h₅ := h₄.step ⟨nofun, .inl (.ctrlC rfl)⟩
  have h₆ := h₅.step ⟨nofun, .inl (.cancel rfl)⟩
  have h₇ := h₆.step ⟨nofun, .inl (.setShutdown rfl)⟩
  have h₈ := h₇.step ⟨nofun, .inr (.inr (.inl (.shutdown rfl rfl)))⟩
  exact ⟨_, h₈, rfl, .inl rfl, ⟨rfl, rfl⟩, nofun, nofun, nofun, nofun⟩

/-! ## When shutdown never deadlocks -/

/-- Without a capture thread none is ever started. -/
theorem capture_notStarted (hstartup : startup ≠ .capture)
    (h : (system τ startup).Reachable s) : s.capture = .notStarted := by
  refine h.invariant (P := fun s => s.capture = .notStarted) ?_ fun s s' hs hstep => ?_
  · rintro s rfl
    rfl
  · obtain ⟨-, hmain | htask | hcap | hana⟩ := hstep
    · cases hmain with
      | capture _ heq => exact absurd heq hstartup
      | _ => exact hs
    · cases htask <;> exact hs
    · cases hcap with
      | spawn hc | opened hc | openFails hc | goOn hc _ | shutdown hc _ | packet hc _ | timeout hc
      | noMorePackets hc | fatal hc | joined hc _ =>
        rw [hs] at hc
        cases hc
    · cases hana <;> exact hs

/-- **No clean shutdown with a capture thread**: once it is started, the main task
never comes to `baseline.persist()`. -/
theorem never_persists (h : (system τ startup).Reachable s) (hcapture : s.capture ≠ .notStarted) :
    s.main ≠ .persist := fun hm => hcapture ((open_of_reachable h).main hm)

/-- **Shutdown, exactly**: it never deadlocks if and only if the capture thread is
never started. -/
theorem neverDeadlocks_iff (τ : Type u) (validUri : Str → Bool) (cfg : Config) :
    NeverDeadlocks τ (cfg.startup validUri) ↔ ¬ cfg.StartsCapture validUri := by
  rw [← Config.startup_eq_capture]
  constructor
  · rintro ⟨-, hfree⟩ hcapture
    obtain ⟨s, hreach, hstuck⟩ := exists_stuck τ
    rw [hcapture] at hfree
    exact hfree ⟨s, hreach, hstuck.forever⟩
  · intro hstartup
    constructor
    · intro s hreach hjoin
      rw [capture_notStarted hstartup hreach] at hjoin
      cases hjoin
    · rintro ⟨s, hreach, hforever⟩
      obtain ⟨hjoin, -⟩ := hforever s .refl
      rw [capture_notStarted hstartup hreach] at hjoin
      cases hjoin

/-- The default options. -/
def defaultConfig : Config := ⟨false, 1024, none, false⟩

/-- **The agent deadlocks on Ctrl-C**: with the default options there is a
reachable state in which the capture thread joins the analyzer with the buffer
open, and from which all three wait for ever. -/
theorem deadlocks_on_ctrlC :
    let startup := defaultConfig.startup fun _ => true
    (∃ s, (system Unit startup).Reachable s ∧ s.capture = .join ∧ s.buffer.closed = false ∧
      (system Unit startup).Forever Waiting s) ∧ ¬ NeverDeadlocks Unit startup := by
  obtain ⟨s, hreach, hstuck⟩ := exists_stuck Unit
  refine ⟨⟨s, hreach, hstuck.capture, hstuck.buffer.2, hstuck.forever⟩, ?_⟩
  rintro ⟨-, hfree⟩
  exact hfree ⟨s, hreach, hstuck.forever⟩

end Shutdown

end Ocellus
