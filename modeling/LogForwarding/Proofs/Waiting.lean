import LogForwarding.Reconcile.ApiCalls
import LogForwarding.Settings.Validation

/-!
How long a state of a bundle is waited for.  The server answers at once, whatever it answers, and
its clock moves only while the controller waits.  The looks at the bundle are regular, the first
that finds the state or fails is the last one, and the settings bound how many there are.
-/

namespace LogForwarding

/-- What a look at a bundle finds: the bundle as it is, no bundle, or a failure. -/
abbrev Sight := Except RequestError (Option NodeBundle)

/-- What a look at a bundle finds in the answer of the server.  A bundle without a name cannot be
asked for. -/
def ApiResponse.sight (response : ApiResponse) (key : ObjectKey) : Sight :=
  if key.name = "" then .error .unnamed
  else
    match response.result NodeBundle.decode with
    | .ok bundle => .ok (some bundle)
    | .error error => if error.isAbsentToReader then .ok none else .error error

namespace BundleState

/-- Whether nothing more is waited for after a look. -/
def settledBy (state : BundleState) : Sight → Bool
  | .ok found => state.holds found
  | .error _ => true

/-- How a wait ends that ends with a look. -/
def replyTo (state : BundleState) (key : ObjectKey) (timeout : Nat) :
    Sight → Reply ChannelError Unit
  | .ok found => if state.holds found then .ok () else .failed (.timeout key.name state timeout)
  | .error error => .failed (.request key.name error)

variable {state : BundleState} {key : ObjectKey} {timeout : Nat} {sight : Sight}

theorem replyTo_eq_ok_iff :
    state.replyTo key timeout sight = .ok () ↔ ∃ found, sight = .ok found ∧ state.holds found := by
  cases sight with
  | error error => simp [replyTo]
  | ok found =>
      cases hholds : state.holds found with
      | true => simp [replyTo, hholds]
      | false => simp [replyTo, hholds]

theorem replyTo_eq_failed_iff {error : RequestError} :
    state.replyTo key timeout sight = .failed (.request key.name error) ↔ sight = .error error := by
  cases sight with
  | error other => simp [replyTo]
  | ok found =>
      cases hholds : state.holds found with
      | true => simp [replyTo, hholds]
      | false => simp [replyTo, hholds]

theorem replyTo_eq_timeout_iff :
    state.replyTo key timeout sight = .failed (.timeout key.name state timeout) ↔
      ¬ state.settledBy sight := by
  cases sight with
  | error error => simp [replyTo, settledBy]
  | ok found =>
      cases hholds : state.holds found with
      | true => simp [replyTo, settledBy, hholds]
      | false => simp [replyTo, settledBy, hholds]

end BundleState

/-- A server that answers at once, with a clock that moves only while it is waited. -/
structure PromptServer where
  /-- The seconds that have passed. -/
  seconds : Nat
  /-- The requests with their times. -/
  log : List (Nat × ApiRequest)

namespace PromptServer

variable {answers : Nat → ApiResponse} {key : ObjectKey} {state : BundleState}
  {interval timeout : Nat}

def logged (server : PromptServer) (request : ApiRequest) : PromptServer :=
  ⟨server.seconds, server.log ++ [(server.seconds, request)]⟩

/-- The answers are given one after the other, and the controller is never told to stop. -/
def answer (answers : Nat → ApiResponse) :
    (question : ApiQuestion) → PromptServer → question.Answer × PromptServer
  | .request request, server => (answers server.log.length, server.logged request)
  | .attempt request, server => (some (answers server.log.length), server.logged request)
  | .pause seconds, server => (false, ⟨server.seconds + seconds, server.log⟩)
  | .now, server => ("", server)

theorem run_pause (server : PromptServer) (seconds : Nat) :
    (Session.pause seconds).run (answer answers) server =
      (false, ⟨server.seconds + seconds, server.log⟩) := rfl

theorem run_attempt {α : Type} (server : PromptServer) (request : ApiRequest)
    (decode : Decoder α) :
    (Session.attempt request decode).run (answer answers) server =
      (.ofExcept ((answers server.log.length).result decode), server.logged request) := rfl

theorem run_read (hname : key.name ≠ "") (server : PromptServer) :
    (Session.read key NodeBundle.decode).run (answer answers) server =
      (.ofExcept ((answers server.log.length).sight key), server.logged (.get key)) := by
  rw [Session.read, if_neg hname, Dialogue.run_bind, run_attempt, ApiResponse.sight, if_neg hname]
  cases (answers server.log.length).result NodeBundle.decode with
  | ok bundle => rfl
  | error error =>
      dsimp only [Reply.ofExcept]
      split <;> rfl

variable {server : PromptServer} {looks rest : Nat}

/-- A look that does not settle the wait has found something that is not waited for. -/
theorem exists_found_of_not_settledBy {sight : Sight} (hopen : ¬ state.settledBy sight) :
    ∃ found, sight = .ok found ∧ ¬ state.holds found := by
  cases sight with
  | error error => exact absurd rfl hopen
  | ok found => exact ⟨found, rfl, hopen⟩

/-- No look follows one that settles the wait. -/
theorem run_lookAt_settled (hname : key.name ≠ "")
    (hsettled : state.settledBy ((answers server.log.length).sight key)) :
    (ApiCalls.lookAt key state interval timeout (looks + 1) rest).run (answer answers) server =
      (state.replyTo key timeout ((answers server.log.length).sight key),
        server.logged (.get key)) := by
  rw [ApiCalls.lookAt, Dialogue.run_bind, run_read hname]
  cases hsight : (answers server.log.length).sight key with
  | error error => rfl
  | ok found =>
      have hholds : state.holds found := by simpa [hsight, BundleState.settledBy] using hsettled
      simp [Reply.ofExcept, BundleState.replyTo, hholds]

/-- After the last look that does not settle the wait, its time passes. -/
theorem run_lookAt_last (hname : key.name ≠ "")
    (hopen : ¬ state.settledBy ((answers server.log.length).sight key)) :
    (ApiCalls.lookAt key state interval timeout 1 rest).run (answer answers) server =
      (state.replyTo key timeout ((answers server.log.length).sight key),
        ⟨server.seconds + rest, (server.logged (.get key)).log⟩) := by
  rw [ApiCalls.lookAt, Dialogue.run_bind, run_read hname]
  obtain ⟨found, hsight, hholds⟩ := exists_found_of_not_settledBy hopen
  rw [hsight]
  simp only [Reply.ofExcept, if_neg hholds, if_true, BundleState.replyTo]
  rw [ApiCalls.lookAt, Dialogue.run_bind, run_pause]
  rfl

/-- After another look that does not settle the wait there is one more. -/
theorem run_lookAt_next (hname : key.name ≠ "")
    (hopen : ¬ state.settledBy ((answers server.log.length).sight key)) :
    (ApiCalls.lookAt key state interval timeout (looks + 2) rest).run (answer answers) server =
      (ApiCalls.lookAt key state interval timeout (looks + 1) (rest - interval)).run
        (answer answers) ⟨server.seconds + interval, (server.logged (.get key)).log⟩ := by
  rw [ApiCalls.lookAt, Dialogue.run_bind, run_read hname]
  obtain ⟨found, hsight, hholds⟩ := exists_found_of_not_settledBy hopen
  rw [hsight]
  simp only [Reply.ofExcept, if_neg hholds, Nat.succ_ne_zero, if_false]
  rfl

/-- The looks end with the first that settles the wait, or when there is time for no other. -/
structure StopsAt (state : BundleState) (sights : Nat → Sight) (most last : Nat) : Prop where
  within : last ≤ most
  unsettled : ∀ n < last, ¬ state.settledBy (sights n)
  settled : last < most → state.settledBy (sights last)

/-- A look that settles nothing puts the end off. -/
theorem StopsAt.next {sights : Nat → Sight} {most last : Nat}
    (hopen : ¬ state.settledBy (sights 0))
    (hlater : StopsAt state (fun n => sights (n + 1)) most last) :
    StopsAt state sights (most + 1) (last + 1) where
  within := Nat.succ_le_succ hlater.within
  unsettled n hn := by
    cases n with
    | zero => exact hopen
    | succ n => exact hlater.unsettled n (Nat.lt_of_succ_lt_succ hn)
  settled hlast := hlater.settled (Nat.lt_of_succ_lt_succ hlast)

/-- The server after looks at regular times and what is left to wait after the last of them. -/
def watched (server : PromptServer) (key : ObjectKey) (interval last left : Nat) : PromptServer :=
  ⟨server.seconds + last * interval + left,
    server.log ++ (List.range (last + 1)).map fun n => (server.seconds + n * interval, .get key)⟩

theorem watched_succ (server : PromptServer) (interval last left : Nat) :
    watched ⟨server.seconds + interval, (server.logged (.get key)).log⟩ key interval last left =
      server.watched key interval (last + 1) left := by
  have htimes : ∀ n, server.seconds + interval + n * interval =
      server.seconds + (n + 1) * interval := by
    intro n
    rw [Nat.succ_mul]
    omega
  simp [watched, logged, List.range_succ_eq_map (n := last + 1), htimes, Function.comp_def]

/-- All the looks that are made.  What is left of the time passes if none of them is settling. -/
theorem run_lookAt (answers : Nat → ApiResponse) (state : BundleState) (interval timeout : Nat)
    (hname : key.name ≠ "") (most rest : Nat) (server : PromptServer) :
    ∃ last left, StopsAt state (fun n => (answers (server.log.length + n)).sight key) most last ∧
      (ApiCalls.lookAt key state interval timeout (most + 1) rest).run (answer answers) server =
        (state.replyTo key timeout ((answers (server.log.length + last)).sight key),
          server.watched key interval last left) ∧
      left = if state.settledBy ((answers (server.log.length + last)).sight key) then 0
        else rest - last * interval := by
  -- By the looks for which there is still time, wherever the clock and the answers have got to.
  induction most generalizing rest server with
  | zero =>
      refine ⟨0, _, ⟨Nat.le_refl 0, nofun, nofun⟩, ?_, rfl⟩
      by_cases hsettled : state.settledBy ((answers server.log.length).sight key)
      · rw [run_lookAt_settled hname hsettled, Nat.add_zero, if_pos hsettled]
        simp [watched, logged]
      · rw [run_lookAt_last hname hsettled, Nat.add_zero, if_neg hsettled]
        simp [watched, logged]
  | succ most ih =>
      by_cases hsettled : state.settledBy ((answers server.log.length).sight key)
      · refine ⟨0, _, ⟨Nat.zero_le _, nofun, fun _ => hsettled⟩, ?_, rfl⟩
        rw [run_lookAt_settled hname hsettled, Nat.add_zero, if_pos hsettled]
        simp [watched, logged]
      · obtain ⟨last, left, hstops, hrun, hleft⟩ := ih (rest - interval)
          ⟨server.seconds + interval, (server.logged (.get key)).log⟩
        have hlength : (server.logged (.get key)).log.length = server.log.length + 1 := by
          simp [logged]
        simp only [hlength, Nat.add_assoc, Nat.add_comm 1] at hstops hrun hleft
        refine ⟨last + 1, left, StopsAt.next hsettled hstops, ?_, ?_⟩
        · rw [run_lookAt_next hname hsettled, hrun, watched_succ]
        · rw [hleft, Nat.succ_mul, Nat.sub_sub, Nat.add_comm interval]

/-- What is known of a wait after its looks, which are counted from zero to the last. -/
structure Waited (key : ObjectKey) (state : BundleState) (interval timeout : Nat)
    (sights : Nat → Sight) (last : Nat) (reply : Reply ChannelError Unit)
    (server : PromptServer) : Prop where
  bounded : last ≤ timeout / interval
  /-- The server is asked at regular times, unless the bundle has no name. -/
  asked : server.log = if key.name = "" then [] else
    (List.range (last + 1)).map fun n => (n * interval, .get key)
  /-- No look follows one that settles the wait. -/
  unsettled : ∀ n < last, ¬ state.settledBy (sights n)
  /-- Every look that is due before the end is made, unless an earlier one settles the wait. -/
  due : ∀ n, n * interval < timeout → (∀ m < n, ¬ state.settledBy (sights m)) → n ≤ last
  ok_iff : reply = .ok () ↔ ∃ found, sights last = .ok found ∧ state.holds found
  failed_iff : ∀ error, reply = .failed (.request key.name error) ↔ sights last = .error error
  timeout_iff : reply = .failed (.timeout key.name state timeout) ↔
    ∀ n ≤ last, ¬ state.settledBy (sights n)
  /-- Without a look that settles the wait, all its time passes. -/
  passed : server.seconds = if state.settledBy (sights last) then last * interval else timeout

/-- A look that is due before the end is made, unless an earlier one settles the wait. -/
theorem StopsAt.due {sights : Nat → Sight} {most last n : Nat}
    (hstops : StopsAt state sights most last) (hall : timeout ≤ (most + 1) * interval)
    (hdue : n * interval < timeout) (hopen : ∀ m < n, ¬ state.settledBy (sights m)) : n ≤ last := by
  refine Nat.le_of_not_lt fun hlater => ?_
  have hlast : most ≤ last :=
    Nat.le_of_not_lt fun hlt => hopen last hlater (hstops.settled hlt)
  have hpast : (most + 1) * interval ≤ n * interval :=
    Nat.mul_le_mul_right interval (Nat.lt_of_le_of_lt hlast hlater)
  omega

theorem StopsAt.all_open_iff {sights : Nat → Sight} {most last : Nat}
    (hstops : StopsAt state sights most last) :
    (∀ n ≤ last, ¬ state.settledBy (sights n)) ↔ ¬ state.settledBy (sights last) := by
  constructor
  · intro hopen
    exact hopen last (Nat.le_refl last)
  · intro hopen n hn
    rcases Nat.lt_or_eq_of_le hn with hlt | rfl
    · exact hstops.unsettled n hlt
    · exact hopen

theorem StopsAt.waited {sights : Nat → Sight} {most last left : Nat} (hname : key.name ≠ "")
    (hinterval : 0 < interval) (hstops : StopsAt state sights most last)
    (hmost : most * interval < timeout) (hall : timeout ≤ (most + 1) * interval)
    (hleft : left = if state.settledBy (sights last) then 0 else timeout - last * interval) :
    Waited key state interval timeout sights last (state.replyTo key timeout (sights last))
      (watched ⟨0, []⟩ key interval last left) := by
  have hlast : last * interval < timeout :=
    Nat.lt_of_le_of_lt (Nat.mul_le_mul_right interval hstops.within) hmost
  exact {
    bounded := (Nat.le_div_iff_mul_le hinterval).mpr (Nat.le_of_lt hlast)
    asked := by simp [watched, hname]
    unsettled := hstops.unsettled
    due := fun n hdue hopen => hstops.due hall hdue hopen
    ok_iff := BundleState.replyTo_eq_ok_iff
    failed_iff := fun _ => BundleState.replyTo_eq_failed_iff
    timeout_iff := by rw [BundleState.replyTo_eq_timeout_iff, hstops.all_open_iff]
    passed := by
      rw [watched, hleft]
      split
      · simp
      · simp only [Nat.zero_add]
        omega }

theorem run_lookAt_unnamed (hname : key.name = "") :
    (ApiCalls.lookAt key state interval timeout (looks + 1) rest).run (answer answers) server =
      (.failed (.request key.name .unnamed), server) := by
  rw [ApiCalls.lookAt, Session.read, if_pos hname]
  rfl

theorem sight_unnamed (hname : key.name = "") (response : ApiResponse) :
    response.sight key = .error .unnamed :=
  if_pos hname

theorem waited_unnamed (hname : key.name = "") :
    Waited key state interval timeout (fun n => (answers n).sight key) 0
      (.failed (.request key.name .unnamed)) ⟨0, []⟩ where
  bounded := Nat.zero_le _
  asked := by rw [if_pos hname]
  unsettled := nofun
  due n _ hopen := by
    cases n with
    | zero => exact Nat.le_refl 0
    | succ n => exact absurd (by rw [sight_unnamed hname]; rfl) (hopen 0 (Nat.succ_pos n))
  ok_iff := by simp [sight_unnamed hname]
  failed_iff error := by simp [sight_unnamed hname, eq_comm]
  timeout_iff := by simp [sight_unnamed hname, BundleState.settledBy]
  passed := by simp [sight_unnamed hname, BundleState.settledBy]

/-- The number of looks for which there is time. -/
theorem exists_most {interval timeout : Nat} (hinterval : 0 < interval) (htimeout : 0 < timeout) :
    ∃ most, (timeout + interval - 1) / interval = most + 1 ∧ most * interval < timeout ∧
      timeout ≤ (most + 1) * interval := by
  have hpos : 0 < (timeout + interval - 1) / interval := Nat.div_pos (by omega) hinterval
  obtain ⟨most, hmost⟩ := Nat.exists_eq_succ_of_ne_zero (Nat.ne_of_gt hpos)
  refine ⟨most, hmost, ?_⟩
  have hlow := Nat.div_mul_le_self (timeout + interval - 1) interval
  have hhigh := Nat.lt_div_mul_add hinterval (a := timeout + interval - 1)
  rw [hmost, Nat.succ_mul] at hlow hhigh
  rw [Nat.succ_mul]
  omega

/-- A wait with a positive interval and some time makes regular looks. -/
theorem exists_waited (hinterval : 0 < interval) (htimeout : 0 < timeout) (key : ObjectKey)
    (state : BundleState) (answers : Nat → ApiResponse) :
    ∃ last reply server,
      (ApiCalls.await key state interval timeout).run (answer answers) ⟨0, []⟩ = (reply, server) ∧
        Waited key state interval timeout (fun n => (answers n).sight key) last reply server := by
  obtain ⟨most, hlooks, hmost, hall⟩ := exists_most hinterval htimeout
  rw [ApiCalls.await, hlooks]
  by_cases hname : key.name = ""
  · exact ⟨0, _, _, run_lookAt_unnamed hname, waited_unnamed hname⟩
  · obtain ⟨last, left, hstops, hrun, hleft⟩ :=
      run_lookAt answers state interval timeout hname most timeout ⟨0, []⟩
    simp only [List.length_nil, Nat.zero_add] at hstops hrun hleft
    exact ⟨last, _, _, hrun, hstops.waited hname hinterval hmost hall hleft⟩

end PromptServer

namespace ApiCalls

/-- The wait as a loop that does not count its looks: after each of them it waits for the next or
for the end of the time, whichever comes first.  `fuel` says how often the loop may begin anew. -/
def watch (key : ObjectKey) (state : BundleState) (interval timeout : Nat) :
    (fuel passed : Nat) → Session (Option (Reply ChannelError Unit))
  | 0, _ => return none
  | fuel + 1, passed => do
      match ← Session.read key NodeBundle.decode with
      | .cancelled => return some .cancelled
      | .failed error => return some (.failed (.request key.name error))
      | .ok found =>
          if state.holds found then return some (.ok ())
          else if timeout ≤ passed + interval then
            if ← Session.pause (timeout - passed) then return some .cancelled
            return some (.failed (.timeout key.name state timeout))
          else if ← Session.pause interval then return some .cancelled
          else watch key state interval timeout fuel (passed + interval)

theorem watch_eq {key : ObjectKey} {state : BundleState} {interval timeout fuel looks passed : Nat}
    (hfuel : looks < fuel) (htime : passed + looks * interval < timeout)
    (hend : timeout ≤ passed + (looks + 1) * interval) :
    watch key state interval timeout fuel passed =
      some <$> lookAt key state interval timeout (looks + 1) (timeout - passed) := by
  induction fuel generalizing looks passed with
  | zero => cases hfuel
  | succ fuel ih =>
      rw [watch, lookAt, map_bind]
      congr 1
      funext reply
      cases reply with
      | cancelled => rfl
      | failed error => rfl
      | ok found =>
          dsimp only
          by_cases hholds : state.holds found
          · rw [if_pos hholds, if_pos hholds]
            rfl
          · rw [if_neg hholds, if_neg hholds]
            cases looks with
            | zero =>
                rw [if_pos (by omega), if_pos rfl, lookAt, map_bind]
                congr 1
                funext stopped
                cases stopped with
                | true => rfl
                | false => rfl
            | succ looks =>
                have hmore : ¬ timeout ≤ passed + interval := by
                  rw [Nat.succ_mul] at htime
                  omega
                rw [if_neg hmore, if_neg (Nat.succ_ne_zero looks), map_bind]
                congr 1
                funext stopped
                cases stopped with
                | true => rfl
                | false =>
                    rw [Nat.succ_mul] at htime
                    rw [Nat.succ_mul (looks + 1)] at hend
                    rw [Nat.sub_sub]
                    exact ih (by omega) (by omega) (by omega)

/-- The looks that are counted are those of the loop, which does not begin anew more often. -/
theorem watch_eq_await (key : ObjectKey) (state : BundleState) {interval timeout fuel : Nat}
    (hinterval : 0 < interval) (htimeout : 0 < timeout) (hfuel : timeout / interval < fuel) :
    watch key state interval timeout fuel 0 = some <$> await key state interval timeout := by
  obtain ⟨most, hlooks, hmost, hall⟩ := PromptServer.exists_most hinterval htimeout
  have hwithin : most ≤ timeout / interval :=
    (Nat.le_div_iff_mul_le hinterval).mpr (Nat.le_of_lt hmost)
  rw [await, hlooks]
  exact watch_eq (Nat.lt_of_le_of_lt hwithin hfuel) (by omega) (by omega)

end ApiCalls

/-- Settings with which a controller can work leave time for a look. -/
theorem Settings.pollInterval_bounds {settings : Settings} (hsettings : settings.error? = none) :
    0 < settings.cleanup.pollInterval.toNat ∧
      settings.cleanup.pollInterval.toNat ≤ settings.cleanup.healthyTimeout.toNat ∧
      settings.cleanup.pollInterval.toNat ≤ settings.cleanup.deletedTimeout.toNat := by
  rw [error?] at hsettings
  split at hsettings
  case isTrue => cases hsettings
  split at hsettings
  case isTrue => cases hsettings
  split at hsettings
  case isTrue => cases hsettings
  split at hsettings
  case isTrue => cases hsettings
  case isFalse hzero =>
    split at hsettings
    case isTrue => cases hsettings
    case isFalse hlong =>
      rw [not_or, UInt64.not_lt, UInt64.not_lt, UInt64.le_iff_toNat_le, UInt64.le_iff_toNat_le]
        at hlong
      refine ⟨Nat.pos_of_ne_zero ?_, hlong⟩
      exact fun heq => hzero (UInt64.toNat_inj.mp heq)

namespace PromptServer

/-- With settings that a controller can work with, a wait for a state of a bundle ends, whatever the
server answers.  It makes a look at once and one more after each interval, as long as there is time,
and no look after one that finds the state or fails.  It ends well if the last look has found the
state, with its failure if it has failed, and else when the time that the settings allow has passed.
A loop that does not count its looks makes the same ones. -/
theorem await_within_time {settings : Settings} (hsettings : settings.error? = none)
    {seconds : UInt64} (hseconds : seconds = settings.cleanup.healthyTimeout ∨
      seconds = settings.cleanup.deletedTimeout)
    (ns bundle : String) (state : BundleState) (answers : Nat → ApiResponse) :
    (∃ last reply server,
      (ApiCalls.perform settings.cleanup.pollInterval.toNat
          (.channel ns bundle (.await state seconds))).run (answer answers) ⟨0, []⟩ =
        (reply, server) ∧
      Waited ⟨.bundle, some ns, bundle⟩ state settings.cleanup.pollInterval.toNat seconds.toNat
        (fun n => (answers n).sight ⟨.bundle, some ns, bundle⟩) last reply server) ∧
    ∀ fuel, seconds.toNat / settings.cleanup.pollInterval.toNat < fuel →
      ApiCalls.watch ⟨.bundle, some ns, bundle⟩ state settings.cleanup.pollInterval.toNat
          seconds.toNat fuel 0 =
        some <$> ApiCalls.perform settings.cleanup.pollInterval.toNat
          (.channel ns bundle (.await state seconds)) := by
  obtain ⟨hinterval, hhealthy, hdeleted⟩ := Settings.pollInterval_bounds hsettings
  have htimeout : 0 < seconds.toNat := by
    rcases hseconds with rfl | rfl
    · exact Nat.lt_of_lt_of_le hinterval hhealthy
    · exact Nat.lt_of_lt_of_le hinterval hdeleted
  refine ⟨exists_waited hinterval htimeout ⟨.bundle, some ns, bundle⟩ state answers, ?_⟩
  intro fuel hfuel
  exact ApiCalls.watch_eq_await ⟨.bundle, some ns, bundle⟩ state hinterval htimeout hfuel

/-- The answers of a server that has a bundle once and then no more. -/
def vanishing (n : Nat) : ApiResponse :=
  if n = 0 then
    ⟨200, Json.object [("metadata", Json.object [("name", .str "cleaner")]),
      ("spec", Json.object [])]⟩
  else
    ⟨404, Json.object [("status", .str "Failure"), ("reason", .str "NotFound"), ("code", .int 404)]⟩

/-- The bundle is seen to be gone at the second look. -/
theorem vanished_in_time :
    ∃ server, (ApiCalls.perform 5 (.channel "garden" "cleaner" (.await .deleted 120))).run
        (answer vanishing) ⟨0, []⟩ = (.ok (), server) ∧
      server.log = [(0, .get ⟨.bundle, some "garden", "cleaner"⟩),
        (5, .get ⟨.bundle, some "garden", "cleaner"⟩)] := by
  have hstandard : Settings.standard.error? = none := by decide +kernel
  obtain ⟨⟨last, reply, server, hrun, hwaited⟩, -⟩ :=
    await_within_time hstandard (Or.inr rfl) "garden" "cleaner" .deleted vanishing
  have hfirst : ¬ BundleState.deleted.settledBy
      ((vanishing 0).sight ⟨.bundle, some "garden", "cleaner"⟩) := by decide +kernel
  have hsecond : (vanishing 1).sight ⟨.bundle, some "garden", "cleaner"⟩ = .ok none := by rfl
  have hlast : last = 1 := by
    have hatLeast : 1 ≤ last := hwaited.due 1 (by decide) fun m hm => by
      obtain rfl : m = 0 := Nat.lt_one_iff.mp hm
      exact hfirst
    refine Nat.le_antisymm (Nat.le_of_not_lt fun hlater => ?_) hatLeast
    exact hwaited.unsettled 1 hlater (by rw [hsecond]; rfl)
  subst hlast
  obtain rfl : reply = .ok () := hwaited.ok_iff.mpr ⟨none, hsecond, rfl⟩
  exact ⟨server, hrun, hwaited.asked⟩

end PromptServer

end LogForwarding
