import Mathlib.Data.List.Basic

/-!
# Datagram sockets that share a port

A datagram goes to the socket that is connected to where it comes from, and to one that is
not connected when there is none. Unicast addresses only; what a full queue drops is not
modelled.
-/

namespace IperfRuntime.DatagramSockets

/-- A datagram socket. -/
structure Socket (α : Type*) where
  /-- Set by `connect`. -/
  peer : Option α := none
  /-- Where the datagrams that wait come from. -/
  queue : List α := []
  /-- Whether it is open. -/
  live : Bool := true

variable {α : Type*} {front rest : List (Socket α)} {s : Socket α} {a : α}

/-- A socket stands at the place that those in front of it leave. -/
theorem getElem?_behind (front rest : List (Socket α)) (s : Socket α) :
    (front ++ s :: rest)[front.length]? = some s := by
  rw [List.getElem?_append_right (Nat.le_refl _), Nat.sub_self]
  rfl

/-- Changing it leaves the others as they are. -/
theorem modify_middle (f : Socket α → Socket α) (front rest : List (Socket α)) (s : Socket α) :
    (front ++ s :: rest).modify front.length f = front ++ f s :: rest := by
  induction front with
  | nil => rfl
  | cons t front ih =>
    rw [List.cons_append, List.length_cons, List.modify_succ_cons, ih, List.cons_append]

/-- A change in front leaves the rest as it is. -/
theorem modify_front (f : Socket α → Socket α) {j : ℕ} (hj : j < front.length) :
    (front ++ rest).modify j f = front.modify j f ++ rest := by
  induction front generalizing j with
  | nil => exact absurd hj (Nat.not_lt_zero j)
  | cons t front ih =>
    cases j with
    | zero => rfl
    | succ j =>
      rw [List.cons_append, List.modify_succ_cons, List.modify_succ_cons,
        ih (Nat.lt_of_succ_lt_succ hj), List.cons_append]

/-- The first that has a property, when it stands behind those that do not. -/
theorem findIdx?_middle {p : Socket α → Bool} (hfront : ∀ t ∈ front, p t = false)
    (hs : p s = true) :
    (front ++ s :: rest).findIdx? p = some front.length := by
  rw [List.findIdx?_append, List.findIdx?_eq_none_iff.mpr hfront, Option.none_or,
    List.findIdx?_cons, if_pos hs, Option.map_some, Nat.zero_add]

/-- A datagram that is put at the end of the queue. -/
def Socket.push (a : α) (s : Socket α) : Socket α := { s with queue := s.queue ++ [a] }

/-- Whether a socket takes the datagrams of any address. -/
def Socket.listens (s : Socket α) : Bool := s.live && s.peer.isNone

variable [DecidableEq α]

/-- Whether a socket takes the datagrams of one address. -/
def Socket.joined (a : α) (s : Socket α) : Bool := s.live && decide (s.peer = some a)

/-- The socket that a datagram goes to. -/
def demux (a : α) (sockets : List (Socket α)) : Option ℕ :=
  (sockets.findIdx? (Socket.joined a)).or (sockets.findIdx? Socket.listens)

/-- The arrival of a datagram; without a result it is refused. -/
def deliver (a : α) (sockets : List (Socket α)) : Option (List (Socket α)) :=
  (demux a sockets).map fun i => sockets.modify i (Socket.push a)

/-- A datagram reaches the socket that is connected to where it comes from. -/
theorem demux_joined (hfront : ∀ t ∈ front, t.joined a = false) (hs : s.joined a = true) :
    demux a (front ++ s :: rest) = some front.length := by
  unfold demux
  rw [findIdx?_middle hfront hs, Option.some_or]

/-- A datagram from anywhere else reaches the socket that is not connected. -/
theorem demux_listens (hnone : ∀ t ∈ front ++ s :: rest, t.joined a = false)
    (hfront : ∀ t ∈ front, t.listens = false) (hs : s.listens = true) :
    demux a (front ++ s :: rest) = some front.length := by
  unfold demux
  rw [List.findIdx?_eq_none_iff.mpr hnone, Option.none_or, findIdx?_middle hfront hs]

/-- A datagram is queued at the socket that the demultiplexing finds. -/
theorem deliver_of_demux (h : demux a (front ++ s :: rest) = some front.length) :
    deliver a (front ++ s :: rest) = some (front ++ s.push a :: rest) := by
  unfold deliver
  rw [h, Option.map_some, modify_middle]

/-- What waits goes on waiting. -/
theorem deliver_waits {sockets sockets' : List (Socket α)} (h : deliver a sockets = some sockets')
    {i : ℕ} (hs : ∃ s, sockets[i]? = some s ∧ s.queue ≠ []) :
    ∃ s, sockets'[i]? = some s ∧ s.queue ≠ [] := by
  obtain ⟨s, hs, hqueue⟩ := hs
  obtain ⟨k, -, rfl⟩ := Option.map_eq_some_iff.mp h
  rw [List.getElem?_modify, hs]
  refine ⟨_, rfl, ?_⟩
  split
  · exact List.append_ne_nil_of_left_ne_nil hqueue _
  · exact hqueue

end IperfRuntime.DatagramSockets
