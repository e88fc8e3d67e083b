import IperfRuntime.SocketIo
import IperfRuntime.StreamTraffic

/-!
# The bytes of a TCP sender

`iperf_tcp_send` on one stream, call after call, with what the kernel answers inside
`Nwrite` and `Nsendfile`. A soft error behind the first accepted byte of a block is the one
exit that forgets what was accepted. A connection that is closed in between ends the run and
has no next call.
-/

namespace IperfRuntime.TcpSends

open TestState SocketIo StreamTraffic

/-- `NET_HARDERROR`. -/
def netHarderror : ℤ := -2

/-- The return value of `Nwrite` or `Nsendfile`, if they return. -/
def value (w : NetWrite) : Option ℤ :=
  match w.outcome with
  | .returned => some w.written
  | .softError => some netSofterror
  | .hardError => some netHarderror
  | .blocked => none

/-- What the kernel answers while a block is sent, by the call that the test uses. -/
structure BlockScript where
  writes : List WriteEvent
  sendfiles : List SendfileEvent

/-- The call behind `iperf_tcp_send`. -/
def tcpWrite (test : IperfTest) (script : BlockScript) : NetWrite :=
  if test.zerocopy then nsendfile script.sendfiles test.settings.blksize.toNat
  else nwrite script.writes test.settings.blksize.toNat

/-- Calls of `iperf_tcp_send` on a stream, as long as they return. -/
def tcpSends (test : IperfTest) : List BlockScript → IperfStream → Option IperfStream
  | [], sp => some sp
  | script :: rest, sp =>
    (value (tcpWrite test script)).bind fun r => tcpSends test rest (iperfTcpSend r sp).2

/-- The bytes that the kernel accepts over all calls. -/
def accepted (test : IperfTest) (scripts : List BlockScript) : ℕ :=
  (scripts.map fun script => (tcpWrite test script).written).sum

/-- A call that does not end the test. -/
def Tolerated (w : NetWrite) : Prop := w.outcome = .returned ∨ w.outcome = .softError

/-- `write` takes part of the block and then nothing or has no buffers. -/
def WriteGivesUp (events : List WriteEvent) (count : ℕ) : Prop :=
  ∃ (chunks : List ℕ) (e : WriteEvent) (rest : List WriteEvent),
    events = chunks.map .data ++ e :: rest ∧ (e = .zero ∨ e = .noBuffers) ∧
    chunks ≠ [] ∧ chunkBytes chunks < count

/-- `sendfile` takes part of the block and then nothing or has no memory. -/
def SendfileGivesUp (events : List SendfileEvent) (count : ℕ) : Prop :=
  ∃ (chunks : List ℕ) (e : SendfileEvent) (rest : List SendfileEvent),
    events = chunks.map .data ++ e :: rest ∧ (e = .zero ∨ e = .noMemory) ∧
    chunks ≠ [] ∧ chunkBytes chunks < count

/-- The kernel gives up in the middle of a block. -/
def GivesUp (test : IperfTest) (script : BlockScript) : Prop :=
  if test.zerocopy then SendfileGivesUp script.sendfiles test.settings.blksize.toNat
  else WriteGivesUp script.writes test.settings.blksize.toNat

/-- Answers are accepted bytes up to the first other one. -/
theorem exists_chunks {ε : Type*} (data : ℕ → ε) (events : List ε) :
    ∃ (chunks : List ℕ) (rest : List ε), events = chunks.map data ++ rest ∧
      ∀ more, data more ∉ rest.head? := by
  induction events with
  | nil => exact ⟨[], [], rfl, by simp⟩
  | cons e events ih =>
    by_cases hdata : ∃ more, e = data more
    · obtain ⟨more, rfl⟩ := hdata
      obtain ⟨chunks, rest, heq, hrest⟩ := ih
      exact ⟨more :: chunks, rest, by rw [heq]; rfl, hrest⟩
    · exact ⟨[], e :: events, rfl, fun more hmore => hdata ⟨more, Option.some.inj hmore⟩⟩

/-- A soft error with accepted bytes behind it. -/
def Forgets (w : NetWrite) : Prop := w.outcome = .softError ∧ 0 < w.written

/-- `Nwrite` forgets bytes exactly if it gives up after some of them: a soft error in front of
which the kernel has accepted a part of the block. -/
theorem nwrite_forgets_iff (events : List WriteEvent) (count : ℕ) :
    Forgets (nwrite events count) ↔ WriteGivesUp events count := by
  unfold nwrite
  constructor
  · rintro ⟨houtcome, hpos⟩
    obtain ⟨chunks, rest, rfl, hrest⟩ := exists_chunks WriteEvent.data events
    rw [nwriteLoop_data] at houtcome hpos
    split at houtcome
    · rename_i hpart
      rw [if_pos hpart] at hpos
      obtain ⟨n, hn⟩ : ∃ n, count - chunkBytes chunks = n + 1 :=
        ⟨count - chunkBytes chunks - 1, by omega⟩
      rw [hn] at houtcome hpos
      cases rest with
      | nil => cases houtcome
      | cons e rest =>
        have hsome : chunks ≠ [] := by
          intro hnone
          rw [hnone] at hpos
          cases e with
          | data more => exact hrest more rfl
          | zero => exact absurd hpos (by simp [nwriteLoop])
          | interrupted => exact absurd hpos (by simp [nwriteLoop])
          | noBuffers => exact absurd hpos (by simp [nwriteLoop])
          | failed => exact absurd hpos (by simp [nwriteLoop])
        cases e with
        | data more => exact absurd rfl (hrest more)
        | zero => exact ⟨chunks, _, rest, rfl, Or.inl rfl, hsome, hpart⟩
        | interrupted => cases houtcome
        | noBuffers => exact ⟨chunks, _, rest, rfl, Or.inr rfl, hsome, hpart⟩
        | failed => cases houtcome
    · cases houtcome
  · rintro ⟨chunks, e, rest, rfl, hsoft, hsome, hpart⟩
    have hpos := chunkBytes_pos hsome
    obtain ⟨n, hn⟩ : ∃ n, count - chunkBytes chunks = n + 1 :=
      ⟨count - chunkBytes chunks - 1, by omega⟩
    rw [nwriteLoop_data, if_pos hpart, hn, Nat.zero_add]
    rcases hsoft with rfl | rfl
    · exact ⟨rfl, hpos⟩
    · exact ⟨rfl, hpos⟩

/-- `Nsendfile` does so as well, and an `EAGAIN` is no soft error for it once a part is
accepted. -/
theorem nsendfile_forgets_iff (events : List SendfileEvent) (count : ℕ) :
    Forgets (nsendfile events count) ↔ SendfileGivesUp events count := by
  unfold nsendfile
  constructor
  · rintro ⟨houtcome, hpos⟩
    obtain ⟨chunks, rest, rfl, hrest⟩ := exists_chunks SendfileEvent.data events
    rw [nsendfileLoop_data] at houtcome hpos
    split at houtcome
    · rename_i hpart
      rw [if_pos hpart, Nat.zero_add] at hpos
      obtain ⟨n, hn⟩ : ∃ n, count - chunkBytes chunks = n + 1 :=
        ⟨count - chunkBytes chunks - 1, by omega⟩
      rw [hn, Nat.zero_add] at houtcome
      rw [hn] at hpos
      cases rest with
      | nil => cases houtcome
      | cons e rest =>
        cases e with
        | data more => exact absurd rfl (hrest more)
        | zero =>
          refine ⟨chunks, _, rest, rfl, Or.inl rfl, ?_, hpart⟩
          rintro rfl
          exact absurd hpos (lt_irrefl 0)
        | interrupted =>
          dsimp only [nsendfileLoop] at houtcome hpos
          split at houtcome
          · rename_i hnone
            rw [if_pos hnone] at hpos
            dsimp only at hpos
            omega
          · cases houtcome
        | noMemory =>
          refine ⟨chunks, _, rest, rfl, Or.inr rfl, ?_, hpart⟩
          rintro rfl
          exact absurd hpos (lt_irrefl 0)
        | failed => cases houtcome
    · cases houtcome
  · rintro ⟨chunks, e, rest, rfl, hsoft, hsome, hpart⟩
    have hpos := chunkBytes_pos hsome
    obtain ⟨n, hn⟩ : ∃ n, count - chunkBytes chunks = n + 1 :=
      ⟨count - chunkBytes chunks - 1, by omega⟩
    rw [nsendfileLoop_data, if_pos hpart, hn, Nat.zero_add]
    rcases hsoft with rfl | rfl
    · exact ⟨rfl, hpos⟩
    · exact ⟨rfl, hpos⟩

/-- So a write of a TCP stream forgets bytes exactly if its call gives up. -/
theorem tcpWrite_forgets_iff (test : IperfTest) (script : BlockScript) :
    Forgets (tcpWrite test script) ↔ GivesUp test script := by
  unfold tcpWrite GivesUp
  split
  · exact nsendfile_forgets_iff _ _
  · exact nwrite_forgets_iff _ _

/-- What `iperf_tcp_send` counts of a call. -/
def countedBytes (w : NetWrite) : ℕ := if w.outcome = .returned then w.written else 0

/-- No more bytes are counted than were written. -/
theorem countedBytes_le (w : NetWrite) : countedBytes w ≤ w.written := by
  unfold countedBytes
  split
  · exact le_rfl
  · exact Nat.zero_le _

/-- A tolerated call counts what was accepted unless it forgets it. -/
theorem countedBytes_eq_iff {w : NetWrite} (h : Tolerated w) :
    countedBytes w = w.written ↔ ¬ Forgets w := by
  unfold countedBytes Forgets
  rcases h with hreturned | hsoft
  · rw [if_pos hreturned, hreturned]
    simp
  · rw [hsoft, if_neg NetOutcome.noConfusion]
    constructor
    · rintro hzero ⟨-, hpos⟩
      omega
    · intro hnot
      by_contra hne
      exact hnot ⟨rfl, by omega⟩

/-- A stream adds the bytes that its call counts. -/
theorem iperfTcpSend_counted {w : NetWrite} (h : Tolerated w) (sp : IperfStream) :
    ∃ r, value w = some r ∧
      (iperfTcpSend r sp).2.result.bytesSent = sp.result.bytesSent + countedBytes w := by
  unfold value countedBytes
  rcases h with hreturned | hsoft
  · refine ⟨w.written, by rw [hreturned], ?_⟩
    rw [if_pos hreturned]
    rfl
  · refine ⟨netSofterror, by rw [hsoft], ?_⟩
    rw [hsoft]
    rfl

/-- Over tolerated calls the stream counts call by call. -/
theorem tcpSends_counted {test : IperfTest} {scripts : List BlockScript}
    (h : ∀ script ∈ scripts, Tolerated (tcpWrite test script)) (sp : IperfStream) :
    ∃ sp', tcpSends test scripts sp = some sp' ∧ sp'.result.bytesSent =
      sp.result.bytesSent +
        (scripts.map fun script => countedBytes (tcpWrite test script)).sum := by
  induction scripts generalizing sp with
  | nil => exact ⟨sp, rfl, rfl⟩
  | cons script rest ih =>
    obtain ⟨r, hvalue, hcounted⟩ := iperfTcpSend_counted (h script List.mem_cons_self) sp
    obtain ⟨sp', hrest, hbytes⟩ := ih (fun s hs => h s (List.mem_cons_of_mem _ hs))
      (iperfTcpSend r sp).2
    refine ⟨sp', ?_, ?_⟩
    · rw [tcpSends, hvalue]
      exact hrest
    · rw [hbytes, hcounted, List.map_cons, List.sum_cons, Nat.add_assoc]

/-- Sums of bounded terms are equal only term by term. -/
theorem sum_eq_iff {α : Type*} {l : List α} {f g : α → ℕ} (h : ∀ a ∈ l, f a ≤ g a) :
    (l.map f).sum = (l.map g).sum ↔ ∀ a ∈ l, f a = g a := by
  induction l with
  | nil => simp
  | cons a rest ih =>
    have hfirst := h a List.mem_cons_self
    have hrest : ∀ b ∈ rest, f b ≤ g b := fun b hb => h b (List.mem_cons_of_mem _ hb)
    have hle : (rest.map f).sum ≤ (rest.map g).sum := List.sum_le_sum hrest
    rw [List.map_cons, List.map_cons, List.sum_cons, List.sum_cons, List.forall_mem_cons,
      ← ih hrest]
    omega

/-- Over calls that do not end the test, `bytes_sent` moves by what the kernel accepted exactly
when it does not give up in the middle of a block. -/
theorem tcpSends_accounted_iff {test : IperfTest} {scripts : List BlockScript}
    (h : ∀ script ∈ scripts, Tolerated (tcpWrite test script)) (sp : IperfStream) :
    ∃ sp', tcpSends test scripts sp = some sp' ∧
      (sp'.result.bytesSent = sp.result.bytesSent + accepted test scripts ↔
        ∀ script ∈ scripts, ¬ GivesUp test script) := by
  obtain ⟨sp', hsends, hbytes⟩ := tcpSends_counted h sp
  refine ⟨sp', hsends, ?_⟩
  have hsum := sum_eq_iff fun script (_ : script ∈ scripts) =>
    countedBytes_le (tcpWrite test script)
  rw [hbytes, Nat.add_left_cancel_iff]
  unfold accepted
  rw [hsum]
  refine forall₂_congr fun script hscript => ?_
  rw [countedBytes_eq_iff (h script hscript), tcpWrite_forgets_iff]

/-- A sender of blocks of a thousand bytes. -/
def thousandByteBlocks : IperfTest := { settings := { blksize := 1000 } }

/-- A full socket behind six hundred bytes is accounted for. -/
theorem fullSocket_accounted :
    ∃ sp', tcpSends thousandByteBlocks [⟨[.data 599, .interrupted], []⟩] {} = some sp' ∧
      sp'.result.bytesSent = ({} : IperfStream).result.bytesSent +
        accepted thousandByteBlocks [⟨[.data 599, .interrupted], []⟩] := by
  have htolerated : ∀ script ∈ [(⟨[.data 599, .interrupted], []⟩ : BlockScript)],
      Tolerated (tcpWrite thousandByteBlocks script) := by
    intro script hscript
    rw [List.mem_singleton] at hscript
    rw [hscript]
    exact Or.inl rfl
  obtain ⟨sp', hsends, hiff⟩ := tcpSends_accounted_iff htolerated {}
  refine ⟨sp', hsends, hiff.mpr ?_⟩
  intro script hscript
  rw [List.mem_singleton] at hscript
  rw [hscript, ← tcpWrite_forgets_iff]
  exact fun hforgets => absurd hforgets.1 NetOutcome.noConfusion

/-- Missing buffers behind accepted bytes are a soft error, and the bytes are forgotten. -/
theorem missingBuffers_not_accounted :
    ¬∀ (test : IperfTest) (scripts : List BlockScript) (sp : IperfStream),
      (∀ script ∈ scripts, Tolerated (tcpWrite test script)) →
        ∃ sp', tcpSends test scripts sp = some sp' ∧
          sp'.result.bytesSent = sp.result.bytesSent + accepted test scripts := by
  intro hall
  obtain ⟨sp', hsends, hbytes⟩ := hall thousandByteBlocks [⟨[.data 599, .noBuffers], []⟩] {} <| by
    intro script hscript
    rw [List.mem_singleton] at hscript
    rw [hscript]
    exact Or.inr rfl
  cases hsends
  exact absurd hbytes (by decide)

end IperfRuntime.TcpSends
