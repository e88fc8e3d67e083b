import IperfRuntime.MessageReads
import IperfRuntime.ReportOutput

/-!
# What the exchange overwrites

The fields of a stream that an end has measured itself, over `get_results`. On a sender the
peer's count of datagrams takes the place of its own, and the report prints it as what was
sent. An item for a stream that does not exist changes no stream.
-/

namespace IperfRuntime.ResultsOverwrite

open JsonTree TestState TestParameters ResultsExchange ResultsFrame MessageReads ReportOutput
open PrintfText

/-- The measurements of a sender that the peer's figures leave alone. -/
def sentFigures (sp : IperfStream) : ℕ × ℤ := (sp.result.bytesSent, sp.result.streamRetrans)

/-- The measurements of a receiver. -/
def receivedFigures (sp : IperfStream) : ℕ × ℤ × ℤ × ℤ × ℚ :=
  (sp.result.bytesReceived, sp.packetCount, sp.cntError, sp.outoforderPackets, sp.jitter)

/-- A sender's assignment keeps the figures it has counted itself. -/
theorem assignFigures_sent (f : StreamFigures) (sp : IperfStream) :
    sentFigures (assignFigures true f sp) = sentFigures sp := rfl

/-- A receiver's assignment keeps those it has counted. -/
theorem assignFigures_received (f : StreamFigures) (sp : IperfStream) :
    receivedFigures (assignFigures false f sp) = receivedFigures sp := rfl

/-- A member of `streams` applied to the streams. -/
def applyItem (sender : Bool) (streams : List IperfStream) (j : CJson) : List IperfStream :=
  match streamFigures j with
  | none => streams
  | some f => (assignToStream sender f streams).getD streams

/-- What no assignment of an item changes is kept for all streams. -/
theorem applyItem_map {γ : Type*} {sender : Bool} {g : IperfStream → γ}
    (hg : ∀ f sp, g (assignFigures sender f sp) = g sp) (streams : List IperfStream) (j : CJson) :
    (applyItem sender streams j).map g = streams.map g := by
  unfold applyItem
  cases streamFigures j with
  | none => rfl
  | some f =>
    dsimp only
    cases hassign : assignToStream sender f streams with
    | none => rfl
    | some streams' => exact assignToStream_map hg hassign

/-- It is kept over all items of a message. -/
theorem applyItems_map {γ : Type*} {sender : Bool} {g : IperfStream → γ}
    (hg : ∀ f sp, g (assignFigures sender f sp) = g sp) (items : List CJson)
    (streams : List IperfStream) :
    (items.foldl (applyItem sender) streams).map g = streams.map g := by
  induction items generalizing streams with
  | nil => rfl
  | cons j items ih => rw [List.foldl_cons, ih, applyItem_map hg]

/-- `get_results` applies an item to the streams. -/
theorem getStreamResult_streams (s : Bool × IperfTest) (j : CJson) :
    (getStreamResult s j).2.streams = applyItem s.2.sender s.2.streams j ∧
      (getStreamResult s j).2.sender = s.2.sender := by
  unfold getStreamResult applyItem
  cases streamFigures j with
  | none => exact ⟨rfl, rfl⟩
  | some f =>
    dsimp only
    cases assignToStream s.2.sender f s.2.streams with
    | none => exact ⟨rfl, rfl⟩
    | some streams => exact ⟨rfl, rfl⟩

/-- It applies all items, in order. -/
theorem getStreamResults_streams (items : List CJson) (s : Bool × IperfTest) :
    (items.foldl getStreamResult s).2.streams = items.foldl (applyItem s.2.sender) s.2.streams := by
  induction items generalizing s with
  | nil => rfl
  | cons j items ih =>
    obtain ⟨hstreams, hsender⟩ := getStreamResult_streams s j
    rw [List.foldl_cons, List.foldl_cons, ih, hstreams, hsender]

/-- The members of `streams` that `get_results` goes through. -/
def readItems (j : CJson) : List CJson :=
  if (headerKeys.all fun key => (getObjectItem j key).isSome) = true then streamItems j else []

/-- The streams behind `get_results` are those in front with the items of the message applied
in order, also where a later item is malformed. -/
theorem getResults_streams {j : CJson} {test : IperfTest} {r : Bool × IperfTest}
    (h : getResults j test = some r) :
    r.2.streams = (readItems j).foldl (applyItem test.sender) test.streams := by
  unfold getResults at h
  unfold readItems headerKeys streamItems
  split at h
  · rename_i total user system retransmits htotal huser hsystem hretransmits
    have hheader : (["cpu_util_total", "cpu_util_user", "cpu_util_system",
        "sender_has_retransmits"].all fun key => (getObjectItem j key).isSome) = true := by
      simp [htotal, huser, hsystem, hretransmits]
    rw [if_pos hheader]
    dsimp only at h
    cases hstreams : getObjectItem j "streams" with
    | none =>
      rw [hstreams] at h
      cases h
      rfl
    | some streams =>
      rw [hstreams] at h
      dsimp only at h
      have houtput : r.2.streams = ((arrayItems streams).foldl getStreamResult
          (true, getHeader total user system retransmits test)).2.streams := by
        unfold getServerOutput at h
        split at h
        · split at h
          · cases h
            rfl
          · split at h
            · obtain ⟨text, -, rfl⟩ := Option.map_eq_some_iff.mp h
              rfl
            · cases h
              rfl
        · cases h
          rfl
      rw [houtput, getStreamResults_streams]
      rfl
  · rename_i hmissing
    have hheader : ¬ (["cpu_util_total", "cpu_util_user", "cpu_util_system",
        "sender_has_retransmits"].all fun key => (getObjectItem j key).isSome) = true := by
      intro hall
      simp only [List.all_cons, List.all_nil, Bool.and_true, Bool.and_eq_true] at hall
      obtain ⟨htotal, huser, hsystem, hretransmits⟩ := hall
      obtain ⟨total, htotal⟩ := Option.isSome_iff_exists.mp htotal
      obtain ⟨user, huser⟩ := Option.isSome_iff_exists.mp huser
      obtain ⟨system, hsystem⟩ := Option.isSome_iff_exists.mp hsystem
      obtain ⟨retransmits, hretransmits⟩ := Option.isSome_iff_exists.mp hretransmits
      exact hmissing total user system retransmits htotal huser hsystem hretransmits
    rw [if_neg hheader]
    cases h
    rfl

/-- Whether a member carries figures for the stream with the given identifier. -/
def concerns (id : ℤ) (j : CJson) : Bool :=
  (streamFigures j).any fun f => decide (toInt f.id.valueint = id)

/-- The count of datagrams that the last member for a stream carries. -/
def reportedPackets (id : ℤ) : List CJson → Option ℤ
  | [] => none
  | j :: items =>
    match reportedPackets id items with
    | some packets => some packets
    | none =>
      if concerns id j then (streamFigures j).map fun f => toInt f.packets.valueint else none

/-- The peer has counted what each stream has: the first stream with an identifier takes the
figures for it. -/
def CountsAgree (items : List CJson) (streams : List IperfStream) : Prop :=
  ∀ sp, streams.find? (fun other => other.id == sp.id) = some sp →
    ∀ packets ∈ reportedPackets sp.id items, packets = sp.packetCount

/-- The members for one stream do not count for the others, so the streams can be looked at
one by one. -/
theorem reportedPackets_filter (id other : ℤ) (items : List CJson) :
    reportedPackets id (items.filter fun j => !concerns other j) =
      if id = other then none else reportedPackets id items := by
  induction items with
  | nil =>
    split
    · rfl
    · rfl
  | cons j items ih =>
    by_cases hconcerns : concerns other j = true
    · rw [List.filter_cons_of_neg (by simp [hconcerns]), ih]
      by_cases hid : id = other
      · rw [if_pos hid, if_pos hid]
      · have hother : concerns id j = false := by
          unfold concerns at hconcerns ⊢
          cases hfigures : streamFigures j with
          | none => rfl
          | some f =>
            rw [hfigures] at hconcerns
            simp only [Option.any_some, decide_eq_true_eq, decide_eq_false_iff_not] at hconcerns ⊢
            omega
        rw [if_neg hid, if_neg hid, reportedPackets, hother]
        cases reportedPackets id items with
        | none => rfl
        | some packets => rfl
    · rw [List.filter_cons_of_pos (by simp [hconcerns]), reportedPackets, ih, reportedPackets]
      by_cases hid : id = other
      · rw [if_pos hid, if_pos hid, hid]
        dsimp only
        rw [if_neg hconcerns]
      · rw [if_neg hid, if_neg hid]

/-- A member applied to one stream. -/
def assignItem (sender : Bool) (sp : IperfStream) (j : CJson) : IperfStream :=
  match streamFigures j with
  | some f => if toInt f.id.valueint = sp.id then assignFigures sender f sp else sp
  | none => sp

/-- An item does not change the id of a stream. -/
theorem assignItem_id (sender : Bool) (sp : IperfStream) (j : CJson) :
    (assignItem sender sp j).id = sp.id := by
  unfold assignItem
  cases streamFigures j with
  | none => rfl
  | some f =>
    dsimp only
    split
    · unfold assignFigures
      split
      · rfl
      · rfl
    · rfl

/-- A member goes to the first stream that it concerns. -/
theorem applyItem_cons (sender : Bool) (sp : IperfStream) (rest : List IperfStream) (j : CJson) :
    applyItem sender (sp :: rest) j =
      assignItem sender sp j :: (if concerns sp.id j then rest else applyItem sender rest j) := by
  unfold applyItem assignItem concerns
  cases streamFigures j with
  | none => rfl
  | some f =>
    dsimp only
    rw [assignToStream]
    by_cases hid : toInt f.id.valueint = sp.id
    · rw [if_pos hid.symm, if_pos hid, Option.getD_some, Option.any_some,
        if_pos (by simpa using hid)]
    · rw [if_neg (fun h => hid h.symm), if_neg hid, Option.any_some, if_neg (by simpa using hid)]
      cases assignToStream sender f rest with
      | none => rfl
      | some rest' => rfl

/-- Items for the first stream are applied to it, and the others to the rest. -/
theorem applyItems_cons (sender : Bool) (items : List CJson) (sp : IperfStream)
    (rest : List IperfStream) :
    items.foldl (applyItem sender) (sp :: rest) = items.foldl (assignItem sender) sp ::
      (items.filter fun j => !concerns sp.id j).foldl (applyItem sender) rest := by
  induction items generalizing sp rest with
  | nil => rfl
  | cons j items ih =>
    rw [List.foldl_cons, List.foldl_cons, applyItem_cons, ih, assignItem_id]
    by_cases hconcerns : concerns sp.id j = true
    · rw [if_pos hconcerns, List.filter_cons_of_neg (by simp [hconcerns])]
    · rw [if_neg hconcerns, List.filter_cons_of_pos (by simp [hconcerns]), List.foldl_cons]

/-- A sender's count of datagrams gives way to the last one that was reported. -/
theorem assignItems_packetCount (items : List CJson) (sp : IperfStream) :
    (items.foldl (assignItem true) sp).packetCount =
      (reportedPackets sp.id items).getD sp.packetCount := by
  induction items generalizing sp with
  | nil => rfl
  | cons j items ih =>
    rw [List.foldl_cons, ih, assignItem_id, reportedPackets]
    cases reportedPackets sp.id items with
    | some packets => rfl
    | none =>
      unfold assignItem concerns
      cases streamFigures j with
      | none => rfl
      | some f =>
        dsimp only
        by_cases hid : toInt f.id.valueint = sp.id
        · rw [if_pos hid, Option.any_some, if_pos (by simpa using hid)]
          rfl
        · rw [if_neg hid, Option.any_some, if_neg (by simpa using hid)]

/-- Counts agree for all streams if they do for the first and for the rest, which has the
other items only. -/
theorem countsAgree_cons (items : List CJson) (sp : IperfStream) (rest : List IperfStream) :
    CountsAgree items (sp :: rest) ↔
      (∀ packets ∈ reportedPackets sp.id items, packets = sp.packetCount) ∧
        CountsAgree (items.filter fun j => !concerns sp.id j) rest := by
  unfold CountsAgree
  constructor
  · intro h
    refine ⟨h sp (by rw [List.find?_cons_of_pos (by simp)]), ?_⟩
    intro other hfind packets hpackets
    rw [reportedPackets_filter] at hpackets
    by_cases hid : other.id = sp.id
    · rw [if_pos hid] at hpackets
      cases hpackets
    · rw [if_neg hid] at hpackets
      refine h other ?_ packets hpackets
      rw [List.find?_cons_of_neg (by simpa using fun h => hid h.symm)]
      exact hfind
  · rintro ⟨hfirst, hrest⟩ other hfind packets hpackets
    by_cases hid : other.id = sp.id
    · rw [List.find?_cons_of_pos (by simp [hid])] at hfind
      cases hfind
      exact hfirst packets hpackets
    · rw [List.find?_cons_of_neg (by simpa using fun h => hid h.symm)] at hfind
      refine hrest other hfind packets ?_
      rw [reportedPackets_filter, if_neg hid]
      exact hpackets

/-- A sender's counts of datagrams survive if and only if the peer has counted the same. -/
theorem packetCounts_kept_iff (items : List CJson) (streams : List IperfStream) :
    (items.foldl (applyItem true) streams).map (·.packetCount) = streams.map (·.packetCount) ↔
      CountsAgree items streams := by
  induction streams generalizing items with
  | nil =>
    have hnone : ∀ items : List CJson, items.foldl (applyItem true) [] = [] := by
      intro items
      have hmap := @applyItems_map _ true (fun _ : IperfStream => ()) (fun _ _ => rfl) items []
      exact List.map_eq_nil_iff.mp hmap
    rw [hnone]
    simp [CountsAgree]
  | cons sp rest ih =>
    rw [applyItems_cons, List.map_cons, List.map_cons, List.cons.injEq, ih,
      assignItems_packetCount, countsAgree_cons]
    refine and_congr_left fun _ => ?_
    cases reportedPackets sp.id items with
    | none => simp
    | some packets => simp

/-- What an end reports as sent of its streams: the line names the count of each stream before the
exchange. -/
def ReportsSent (before after : IperfTest) : Prop :=
  ∀ endTime, List.Forall₂ (fun sp sp' => ∃ head tail, senderSummary after endTime sp' =
      head ++ ([.line (some (reportDatagrams sp'.socket (packetsOf sp)))] ++ tail))
    before.streams after.streams

/-- An exchange that leaves the measurements of this end alone. -/
structure OwnKept (before after : IperfTest) : Prop where
  sent : before.sender = true → after.streams.map sentFigures = before.streams.map sentFigures
  packets : before.sender = true →
    after.streams.map (·.packetCount) = before.streams.map (·.packetCount)
  received : before.sender = false →
    after.streams.map receivedFigures = before.streams.map receivedFigures
  report : before.role = .client → before.sender = true → before.protocol = .udp →
    ReportsSent before after

/-- The line of `report_datagrams` in the summary of a stream. -/
theorem senderSummary_datagrams {test : IperfTest} (hrole : test.role = .client)
    (hudp : test.protocol = .udp) (endTime : ℚ) (sp : IperfStream) :
    ∃ head tail, senderSummary test endTime sp =
      head ++ ([.line (some (reportDatagrams sp.socket (packetsOf sp)))] ++ tail) := by
  have htcp : ¬ isTcp test = true := by
    unfold isTcp
    rw [hudp]
    decide
  unfold senderSummary
  dsimp only
  rw [if_neg htcp, if_pos hrole, List.append_assoc]
  exact ⟨_, _, rfl⟩

/-- The packets reported are the counted ones less the omitted ones. -/
theorem map_packetsOf (streams : List IperfStream) :
    streams.map packetsOf =
      List.zipWith (· - ·) (streams.map (·.packetCount)) (streams.map (·.omittedPacketCount)) := by
  rw [List.zipWith_map, List.zipWith_self]
  rfl

/-- An exchange leaves the measurements of this end alone, and with them the number of datagrams
that a client reports as sent, if and only if a sender's peer has counted what was sent. -/
theorem getResults_ownKept_iff (j : CJson) (test : IperfTest) (r : Bool × IperfTest)
    (h : getResults j test = some r) :
    OwnKept test r.2 ↔ (test.sender = true → CountsAgree (readItems j) test.streams) := by
  have hstreams := getResults_streams h
  have hframe := (getResults_frame h).test
  constructor
  · intro hkept hsender
    have hpackets := hkept.packets hsender
    rw [hstreams, hsender] at hpackets
    exact (packetCounts_kept_iff _ _).mp hpackets
  · intro hagree
    have hpackets : test.sender = true →
        r.2.streams.map (·.packetCount) = test.streams.map (·.packetCount) := by
      intro hsender
      rw [hstreams, hsender]
      exact (packetCounts_kept_iff _ _).mpr (hagree hsender)
    refine ⟨?_, hpackets, ?_, ?_⟩
    · intro hsender
      rw [hstreams, hsender]
      exact applyItems_map assignFigures_sent _ _
    · intro hreceiver
      rw [hstreams, hreceiver]
      exact applyItems_map assignFigures_received _ _
    · intro hrole hsender hudp endTime
      have hrole' : r.2.role = .client := (congrArg IperfTest.role hframe).trans hrole
      have hudp' : r.2.protocol = .udp := (congrArg IperfTest.protocol hframe).trans hudp
      have homitted : r.2.streams.map (·.omittedPacketCount) =
          test.streams.map (·.omittedPacketCount) := by
        rw [hstreams, hsender]
        exact applyItems_map (fun _ _ => rfl) _ _
      have hcounts : test.streams.map packetsOf = r.2.streams.map packetsOf := by
        rw [map_packetsOf, map_packetsOf, hpackets hsender, homitted]
      have hpairs : List.Forall₂ (fun sp sp' => packetsOf sp = packetsOf sp') test.streams
          r.2.streams := by
        have hequal : List.Forall₂ (· = ·) (test.streams.map packetsOf)
            (r.2.streams.map packetsOf) := by
          rw [hcounts]
          exact List.forall₂_refl _
        exact List.forall₂_map_right_iff.mp (List.forall₂_map_left_iff.mp hequal)
      refine hpairs.imp ?_
      intro sp sp' hsame
      rw [hsame]
      exact senderSummary_datagrams hrole' hudp' endTime sp'

/-- A UDP client that has sent ten datagrams. -/
def tenSent : IperfTest :=
  { role := .client, sender := true, protocol := .udp, numStreams := 1,
    streams := [{ id := 1, packetCount := 10 }] }

/-- The results of a server that has received some of them. -/
def receivedResults (packets : ℤ) : CJson :=
  .object [("cpu_util_total", createNumber 0), ("cpu_util_user", createNumber 0),
    ("cpu_util_system", createNumber 0), ("sender_has_retransmits", createNumber (-1)),
    ("streams", .array [.object [("id", createNumber 1), ("bytes", createNumber 0),
      ("retransmits", createNumber (-1)), ("jitter", createNumber 0), ("errors", createNumber 0),
      ("packets", createNumber packets)]])]

/-- The receiver's message is accepted whatever number of packets it tells. -/
theorem getResults_received (packets : ℤ) :
    ∃ r, getResults (receivedResults packets) tenSent = some r ∧
      r.2.streams.map (·.packetCount) = [toInt packets] := ⟨_, rfl, rfl⟩

/-- With ten packets on both sides the sender's own count is kept. -/
theorem getResults_ten_ownKept :
    ∃ r, getResults (receivedResults 10) tenSent = some r ∧
      (OwnKept tenSent r.2 ↔ (tenSent.sender = true →
        CountsAgree (readItems (receivedResults 10)) tenSent.streams)) := by
  obtain ⟨r, hr, _⟩ := getResults_received 10
  exact ⟨r, hr, getResults_ownKept_iff _ _ r hr⟩

/-- The last of ten datagrams is lost: nine are reported as sent, as the receiver never learns
of the tenth. -/
theorem getResults_nine_not_ownKept :
    ∃ r, getResults (receivedResults 9) tenSent = some r ∧ ¬ OwnKept tenSent r.2 := by
  obtain ⟨r, hr, hcount⟩ := getResults_received 9
  refine ⟨r, hr, ?_⟩
  intro hkept
  have hpackets := hkept.packets rfl
  rw [hcount] at hpackets
  exact absurd hpackets (by decide +kernel)

end IperfRuntime.ResultsOverwrite
