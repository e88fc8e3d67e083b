import IperfRuntime.TestParameters
import Mathlib.Algebra.Group.Nat.Even

/-!
# Roles over a history of calls

`iperf_set_test_role` computes `sender` from the role and the direction, but
`iperf_set_test_reverse` toggles it on every call that leaves the direction reversed. A call
that finds it reversed already turns `sender` the wrong way, until the next call that sets
the role. No other setter touches these fields.
-/

namespace IperfRuntime.RoleHistory

open TestState EntryPoints TestParameters

/-- The calls that move the role, the direction or the protocol of a test. -/
inductive RoleCall where
  /-- `iperf_set_test_role` with `'c'` or `'s'`. -/
  | setRole (server : Bool)
  | setReverse (reverse : Bool)
  | setProtocol (protocol : ProtocolId)
  | resetTest
  deriving DecidableEq, Repr

/-- The test after a call. -/
def roleStep (platform : Platform) (test : IperfTest) : RoleCall → IperfTest
  | .setRole server => iperfSetTestRole platform (if server then .server else .client) test
  | .setReverse reverse => iperfSetTestReverse platform reverse test
  | .setProtocol protocol => TestState.setProtocol platform protocol test
  | .resetTest => iperfResetTest platform test

/-- The test after a history of calls, from `iperf_defaults` on. -/
def roleRun (platform : Platform) (history : List RoleCall) : IperfTest :=
  history.foldl (roleStep platform) (iperfDefaults platform iperfNewTest)

/-- Which end sends: the client, or the server of a reversed test. -/
def sends (role : Role) (reverse : Bool) : Bool :=
  match role with
  | .client => !reverse
  | .server => reverse
  | .unset => false

/-- The end that sends knows it, and it counts retransmits where the platform can. -/
structure RoleConsistent (platform : Platform) (test : IperfTest) : Prop where
  sender : test.sender = sends test.role test.reverse
  retransmits : test.senderHasRetransmits = 1 ↔
    test.sender = true ∧ test.protocol = .tcp ∧ platform.hasTcpinfoRetransmits = true

/-- What counts about a history: the direction it leaves, and how many calls since the
role was last set have found the direction reversed. -/
structure Repeats where
  reverse : Bool := false
  count : ℕ := 0
  deriving DecidableEq, Repr

def repeatStep (r : Repeats) : RoleCall → Repeats
  | .setRole _ => { r with count := 0 }
  | .setReverse reverse => ⟨reverse, if r.reverse then r.count + 1 else r.count⟩
  | .setProtocol _ => r
  | .resetTest => {}

def repeatsOf (history : List RoleCall) : Repeats := history.foldl repeatStep {}

/-- The retransmit flag follows `sender` and the protocol. -/
def FlagFollows (platform : Platform) (test : IperfTest) : Prop :=
  test.senderHasRetransmits =
    if test.sender && test.protocol == .tcp && platform.hasTcpinfoRetransmits then 1 else 0

/-- What a history has done to a test: while a role is set, `sender` is right exactly
after an even number of repeated calls. -/
structure Tracks (platform : Platform) (r : Repeats) (test : IperfTest) : Prop where
  reverse : test.reverse = r.reverse
  flag : FlagFollows platform test
  sender : test.role ≠ .unset →
    (test.sender = sends test.role test.reverse ↔ Even r.count)

/-- After the check the retransmit flag follows role and protocol. -/
theorem flagFollows_check (platform : Platform) (test : IperfTest) :
    FlagFollows platform (checkSenderHasRetransmits platform test) := by
  rw [checkSenderHasRetransmits_eq]
  rfl

/-- It is set exactly for a TCP sender on a platform that counts retransmits. -/
theorem FlagFollows.retransmits {platform : Platform} {test : IperfTest}
    (h : FlagFollows platform test) : test.senderHasRetransmits = 1 ↔
      test.sender = true ∧ test.protocol = .tcp ∧ platform.hasTcpinfoRetransmits = true := by
  unfold FlagFollows at h
  rw [h]
  by_cases hflag : (test.sender && test.protocol == .tcp && platform.hasTcpinfoRetransmits) = true
  · rw [if_pos hflag]
    simpa [and_assoc] using hflag
  · rw [if_neg hflag]
    simpa [and_assoc] using hflag

/-- Choosing a protocol keeps everything but the flag. -/
theorem setProtocol_keeps (platform : Platform) (protocol : ProtocolId) {test : IperfTest}
    (h : FlagFollows platform test) :
    let after := TestState.setProtocol platform protocol test
    after.role = test.role ∧ after.sender = test.sender ∧ after.reverse = test.reverse ∧
      FlagFollows platform after := by
  unfold TestState.setProtocol
  dsimp only
  split
  · refine ⟨?_, ?_, ?_, flagFollows_check platform _⟩
    · rw [checkSenderHasRetransmits_eq]
    · rw [checkSenderHasRetransmits_eq]
    · rw [checkSenderHasRetransmits_eq]
  · exact ⟨rfl, rfl, rfl, h⟩

/-- What setting the role does to the sender and the flag. -/
theorem iperfSetTestRole_spec (platform : Platform) (server : Bool) (test : IperfTest) :
    let role := if server then Role.server else .client
    let after := iperfSetTestRole platform role test
    after.role = role ∧ after.reverse = test.reverse ∧ after.sender = sends role test.reverse := by
  unfold iperfSetTestRole
  dsimp only
  rw [checkSenderHasRetransmits_eq]
  cases server with
  | true => exact ⟨rfl, rfl, by cases test.reverse <;> rfl⟩
  | false => exact ⟨rfl, rfl, by cases test.reverse <;> rfl⟩

/-- What setting the direction does to them. -/
theorem iperfSetTestReverse_spec (platform : Platform) (reverse : Bool) (test : IperfTest) :
    let after := iperfSetTestReverse platform reverse test
    after.role = test.role ∧ after.reverse = reverse ∧
      after.sender = if reverse then !test.sender else test.sender := by
  unfold iperfSetTestReverse
  dsimp only
  rw [checkSenderHasRetransmits_eq]
  exact ⟨rfl, rfl, rfl⟩

/-- Reversing a right `sender` from the plain direction leaves it right; from the reversed
direction it leaves it wrong. -/
theorem sends_toggle {role : Role} (hrole : role ≠ .unset) (sender before after : Bool) :
    ((if after then !sender else sender) = sends role after) ↔
      ((sender = sends role before) ↔ before = false) := by
  cases role with
  | unset => exact absurd rfl hrole
  | client => revert sender before after; decide
  | server => revert sender before after; decide

/-- A call keeps track of how often the roles were exchanged: the parity of the reversals
since the role was last set. -/
theorem Tracks.step {platform : Platform} {r : Repeats} {test : IperfTest}
    (h : Tracks platform r test) (call : RoleCall) :
    Tracks platform (repeatStep r call) (roleStep platform test call) := by
  cases call with
  | setRole server =>
    obtain ⟨hrole, hreverse, hsender⟩ := iperfSetTestRole_spec platform server test
    refine ⟨hreverse.trans h.reverse, flagFollows_check platform _, fun _ => ?_⟩
    dsimp only [roleStep, repeatStep]
    rw [hrole, hreverse, hsender]
    simp
  | setReverse reverse =>
    obtain ⟨hrole, hreverse, hsender⟩ := iperfSetTestReverse_spec platform reverse test
    refine ⟨hreverse, flagFollows_check platform _, fun hset => ?_⟩
    dsimp only [roleStep] at hset ⊢
    rw [hrole] at hset ⊢
    rw [hreverse, hsender, sends_toggle hset test.sender test.reverse reverse,
      h.sender hset, h.reverse]
    dsimp only [repeatStep]
    cases r.reverse with
    | true =>
      rw [if_pos rfl, Nat.even_add_one]
      simp
    | false => simp
  | setProtocol protocol =>
    obtain ⟨hrole, hsender, hreverse, hflag⟩ := setProtocol_keeps platform protocol h.flag
    refine ⟨hreverse.trans h.reverse, hflag, fun hset => ?_⟩
    dsimp only [roleStep] at hset ⊢
    rw [hrole] at hset ⊢
    rw [hsender, hreverse]
    exact h.sender hset
  | resetTest =>
    have hzero : FlagFollows platform { test with
        streams := []
        omitTimer := none
        timer := none
        statsTimer := none
        reporterTimer := none
        done := false
        role := .server
        sender := false
        senderHasRetransmits := 0 } := rfl
    obtain ⟨hrole, hsender, -, hflag⟩ := setProtocol_keeps platform .tcp hzero
    refine ⟨rfl, hflag, fun _ => ?_⟩
    dsimp only [roleStep, repeatStep, iperfResetTest]
    rw [hrole, hsender]
    simp [sends]

/-- With the defaults nothing has been exchanged. -/
theorem tracks_defaults (platform : Platform) :
    Tracks platform {} (iperfDefaults platform iperfNewTest) := by
  have hkeeps : ∀ test : IperfTest, FlagFollows platform test → test.role = .unset →
      test.reverse = false → Tracks platform {} (TestState.setProtocol platform .tcp test) := by
    intro test h hrole hreverse
    obtain ⟨hrole', -, hreverse', hflag⟩ := setProtocol_keeps platform .tcp h
    exact ⟨hreverse'.trans hreverse, hflag, fun hset => absurd (hrole'.trans hrole) hset⟩
  unfold iperfDefaults
  exact hkeeps _ rfl rfl rfl

/-- So it is tracked over any history of calls. -/
theorem tracks_run (platform : Platform) (history : List RoleCall) :
    Tracks platform (repeatsOf history) (roleRun platform history) := by
  have hrun : ∀ (history : List RoleCall) (r : Repeats) (test : IperfTest),
      Tracks platform r test →
      Tracks platform (history.foldl repeatStep r) (history.foldl (roleStep platform) test) := by
    intro history
    induction history with
    | nil => exact fun _ _ h => h
    | cons call rest ih => exact fun r test h => ih _ _ (h.step call)
  exact hrun history {} _ (tracks_defaults platform)

/-- After every history that has set a role, the test is consistent exactly if an even
number of `iperf_set_test_reverse` calls since the role was last set have found the
direction reversed. -/
theorem role_consistent_iff (platform : Platform) {history : List RoleCall}
    (hrole : (roleRun platform history).role ≠ .unset) :
    RoleConsistent platform (roleRun platform history) ↔ Even (repeatsOf history).count := by
  have htracks := tracks_run platform history
  rw [← htracks.sender hrole]
  exact ⟨fun h => h.sender, fun h => ⟨h, htracks.flag.retransmits⟩⟩

/-- A reversed client. -/
theorem reversed_client_consistent :
    RoleConsistent ⟨true, true, fun h => h⟩
        (roleRun ⟨true, true, fun h => h⟩ [.setRole false, .setReverse true]) ↔
      Even (repeatsOf [.setRole false, .setReverse true]).count :=
  role_consistent_iff _ (by decide)

/-- The option `-R` given twice behind `-c` leaves a reversed client that sends, as the second
call toggles what the first has set. -/
theorem reversed_twice_sends :
    ¬∀ (platform : Platform) (history : List RoleCall), (roleRun platform history).role ≠ .unset →
      RoleConsistent platform (roleRun platform history) := by
  intro hall
  have hconsistent := hall ⟨true, true, fun h => h⟩
    [.setRole false, .setReverse true, .setReverse true] (by decide)
  exact absurd hconsistent.sender (by decide)

end IperfRuntime.RoleHistory
