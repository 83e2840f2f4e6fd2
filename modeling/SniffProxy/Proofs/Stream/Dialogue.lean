import Mathlib.Logic.Relation
import Mathlib.Order.GameAdd
import SniffProxy.Proofs.Stream.Following

/-!
# Two parties of one protocol

Two sessions are joined by two channels, one in each direction. A channel loses nothing and keeps
the order, but a read may get any piece of what is in it and a write may have any piece accepted,
and the parties take turns in any order. A party that is done may send payload, whether the other
one is done or not.

If the two follow dual protocols, one of them is ahead by bytes that it has sent and the other has
not taken, and by nothing else. So a party that waits for a byte is always behind, or the other one
is about to send it; and payload is only ever behind all that is still to be taken.

* `Session.Move`, `Link.Move`, `Link.Step` — what a party, the two parties, and the whole can do.
* `Leads` — the one party is ahead by some bytes in flight.
* `Link.Agrees` — the invariant; `Link.agrees_of_reachable` — it holds in every reachable state.
* `Link.Agrees.progress`, `Link.Agrees.of_over`, `Link.Agrees.completes` — no deadlock, the one way
  to end, and that every run comes to it.
-/

namespace SniffProxy

open Act (sends takes duals)
open Relation (ReflTransGen)

/-! ## Parties and channels -/

/-- One request of a party is answered. The party takes from an inbox and sends some bytes. A read
gets any piece from the front of the inbox that fits, a write has any piece accepted. -/
inductive Session.Move {α : Type} : Session α → Bytes → Session α → Bytes → Bytes → Prop where
  | read {size : Nat} {next : Except IoError Bytes → Session α} {front back : Bytes}
      (hfront : front ≠ []) (hsize : front.length ≤ size) :
      Move (.read size next) (front ++ back) (next (.ok front)) back []
  | readNothing {next : Except IoError Bytes → Session α} {inbox : Bytes} :
      Move (.read 0 next) inbox (next (.ok [])) inbox []
  | write {next : Except IoError Nat → Session α} {inbox front back : Bytes}
      (hfront : front ≠ []) :
      Move (.write (front ++ back) next) inbox (next (.ok front.length)) inbox front
  | writeNothing {next : Except IoError Nat → Session α} {inbox : Bytes} :
      Move (.write [] next) inbox (next (.ok 0)) inbox []
  | flush {next : Except IoError Unit → Session α} {inbox : Bytes} :
      Move (.flush next) inbox (next (.ok ())) inbox []
  | report {event : LogEvent} {next : Session α} {inbox : Bytes} :
      Move (.report event next) inbox next inbox []

namespace Session

variable {α : Type}

/-- A write has all its bytes accepted, if there are some. -/
theorem Move.write_all {data inbox : Bytes} {next : Except IoError Nat → Session α}
    (hdata : data ≠ []) :
    Move (.write data next) inbox (next (.ok data.length)) inbox data := by
  have h := @Move.write α next inbox data [] hdata
  rwa [List.append_nil] at h

/-- A session that goes on is a part of what it was. -/
theorem move_wellFounded :
    WellFounded fun s' s : Session α => ∃ inbox inbox' sent, s.Move inbox s' inbox' sent := by
  refine ⟨fun s => ?_⟩
  induction s with
  | done value => exact ⟨_, by rintro s' ⟨_, _, _, hmove⟩; cases hmove⟩
  | read size next ih => exact ⟨_, by rintro s' ⟨_, _, _, hmove⟩; cases hmove <;> exact ih _⟩
  | write data next ih => exact ⟨_, by rintro s' ⟨_, _, _, hmove⟩; cases hmove <;> exact ih _⟩
  | flush next ih => exact ⟨_, by rintro s' ⟨_, _, _, hmove⟩; cases hmove; exact ih _⟩
  | report event next ih => exact ⟨_, by rintro s' ⟨_, _, _, hmove⟩; cases hmove; exact ih⟩

end Session

/-- Two parties and what is in the channels between them. -/
structure Link (α β : Type) where
  client : Session α
  server : Session β
  /-- What the client has sent and the server has not taken. -/
  up : Bytes
  /-- What the server has sent and the client has not taken. -/
  down : Bytes
  /-- The part of what the client has sent that it sent after it was done. -/
  upPayload : Bytes
  /-- The part of what the server has sent that it sent after it was done. -/
  downPayload : Bytes

namespace Link

variable {α β : Type}

/-- Two parties that have not begun. -/
def start (client : Session α) (server : Session β) : Link α β :=
  ⟨client, server, [], [], [], []⟩

/-- One of the parties goes on. -/
inductive Move : Link α β → Link α β → Prop where
  | client {link : Link α β} {client : Session α} {down sent : Bytes}
      (h : link.client.Move link.down client down sent) :
      Move link { link with client, down, up := link.up ++ sent }
  | server {link : Link α β} {server : Session β} {up sent : Bytes}
      (h : link.server.Move link.up server up sent) :
      Move link { link with server, up, down := link.down ++ sent }

/-- One of the parties goes on, or sends payload because it is done. -/
inductive Step : Link α β → Link α β → Prop where
  | move {link next : Link α β} (h : Move link next) : Step link next
  | clientPayload {link : Link α β} {value : α} (h : link.client = .done value) (bytes : Bytes) :
      Step link { link with
        up := link.up ++ bytes
        upPayload := link.upPayload ++ bytes }
  | serverPayload {link : Link α β} {value : β} (h : link.server = .done value) (bytes : Bytes) :
      Step link { link with
        down := link.down ++ bytes
        downPayload := link.downPayload ++ bytes }

/-- Both parties are done. -/
def Over (link : Link α β) : Prop :=
  (∃ value, link.client = .done value) ∧ ∃ value, link.server = .done value

/-- The same with the parties exchanged. -/
def swap (link : Link α β) : Link β α :=
  ⟨link.server, link.client, link.down, link.up, link.downPayload, link.upPayload⟩

end Link

/-! ## One party ahead of the other -/

section

variable {α β : Type} {leader leader' : Session α} {follower follower' : Session β}
  {flight inbox inbox' sent payload : Bytes} {v : α} {w : β}

/-- The leader is ahead of the follower by some bytes that it has sent: the follower is to take them
first, and then to do what is dual to what the leader is still to do. -/
def Leads (leader : Session α) (follower : Session β) (flight : Bytes) (v : α) (w : β) : Prop :=
  ∃ acts, leader.Follows acts v ∧ follower.Follows (takes flight ++ duals acts) w

theorem takes_ne_sends {front back : Bytes} {acts acts' : List Act} (hfront : front ≠ [])
    (hback : back ≠ []) : takes front ++ acts ≠ sends back ++ acts' := by
  intro h
  cases front with
  | nil => exact hfront rfl
  | cons b front =>
    cases back with
    | nil => exact hback rfl
    | cons c back => injection h with hact; cases hact

/-- A leader reads nothing: whatever it is to take next has not been sent. -/
theorem Leads.leader_move (h : Leads leader follower flight v w)
    (hmove : leader.Move inbox leader' inbox' sent)
    (hinbox : inbox ≠ [] → ∃ value, follower = .done value) :
    inbox' = inbox ∧ Leads leader' follower (flight ++ sent) v w := by
  obtain ⟨acts, hleader, hfollower⟩ := h
  cases hmove with
  | @read size next front back hfront hsize =>
    obtain ⟨hpos, bytes, rest, rfl, hlength, _⟩ := hleader
    -- the inbox holds something, so the follower is done and has nothing left to send
    obtain ⟨value, rfl⟩ := hinbox fun hnil => hfront (List.append_eq_nil_iff.mp hnil).1
    have hnil := hfollower.1
    simp only [Act.duals_append, Act.duals_takes, List.append_eq_nil_iff] at hnil
    have hbytes : bytes = [] := List.map_eq_nil_iff.mp hnil.2.1
    rw [hbytes, List.length_nil] at hlength
    omega
  | readNothing => exact absurd hleader.1 (Nat.lt_irrefl 0)
  | @write next _ front back hfront =>
    obtain ⟨_, rest, rfl, hnext⟩ := hleader
    refine ⟨rfl, sends back ++ rest, hnext sent back rfl hfront, ?_⟩
    simpa only [Act.duals_append, Act.duals_sends, Act.takes_append, List.append_assoc]
      using hfollower
  | writeNothing => exact absurd rfl hleader.1
  | flush => exact ⟨rfl, acts, hleader, by simpa using hfollower⟩
  | report => exact ⟨rfl, acts, hleader, by simpa using hfollower⟩

/-- A follower takes from the bytes in flight and never from the payload behind them; once it sends,
it leads. -/
theorem Leads.follower_move (h : Leads leader follower flight v w)
    (hmove : follower.Move inbox follower' inbox' sent) (hinbox : inbox = flight ++ payload)
    (hpayload : payload ≠ [] → ∃ value, leader = .done value) :
    (∃ flight', inbox' = flight' ++ payload ∧ sent = [] ∧ Leads leader follower' flight' v w) ∨
      (flight = [] ∧ inbox' = payload ∧ Leads follower' leader sent w v) := by
  obtain ⟨acts, hleader, hfollower⟩ := h
  cases hmove with
  | @read size next front back hfront hsize =>
    obtain ⟨_, bytes, rest, hacts, hlength, hnext⟩ := hfollower
    -- what the read got was in flight: there is no payload, or all that is to be taken is in flight
    have hflight : front.length ≤ flight.length := by
      by_cases hnone : payload = []
      · have hall := congrArg List.length hinbox
        rw [hnone, List.append_nil, List.length_append] at hall
        omega
      · obtain ⟨value, rfl⟩ := hpayload hnone
        have hall := congrArg List.length hacts
        rw [hleader.1] at hall
        simp only [takes, Act.duals_nil, List.append_nil, List.length_append,
          List.length_map] at hall
        omega
    obtain ⟨left, rfl⟩ : front <+: flight :=
      List.prefix_of_prefix_length_le ⟨_, hinbox⟩ ⟨_, rfl⟩ hflight
    rw [List.append_assoc, List.append_cancel_left_eq] at hinbox
    rw [Act.takes_append, List.append_assoc] at hacts
    obtain ⟨more, rfl⟩ := Act.prefix_of_takes hacts (by omega)
    rw [Act.takes_append, List.append_assoc, List.append_cancel_left_eq] at hacts
    refine .inl ⟨left, hinbox, rfl, acts, hleader, ?_⟩
    rw [hacts]
    exact hnext front more rfl hfront
  | readNothing => exact absurd hfollower.1 (Nat.lt_irrefl 0)
  | @write next _ front back hfront =>
    obtain ⟨hdata, rest, hacts, hnext⟩ := hfollower
    have hnone : flight = [] := by
      by_contra hsome
      exact takes_ne_sends hsome hdata hacts
    subst hnone
    refine .inr ⟨rfl, hinbox, sends back ++ rest, hnext sent back rfl hfront, ?_⟩
    have hdual := congrArg duals hacts
    simp only [Act.takes_nil, List.nil_append, Act.duals_duals, Act.duals_append, Act.duals_sends,
      Act.takes_append] at hdual ⊢
    rw [← List.append_assoc, ← hdual]
    exact hleader
  | writeNothing => exact absurd rfl hfollower.1
  | flush => exact .inl ⟨flight, hinbox, rfl, acts, hleader, hfollower⟩
  | report => exact .inl ⟨flight, hinbox, rfl, acts, hleader, hfollower⟩

/-- A session that asks for something other than bytes can always go on. -/
theorem Session.Follows.move_of_sends {acts : List Act} {bytes : Bytes}
    (h : leader.Follows (sends bytes ++ acts) v) (hbytes : bytes ≠ []) (inbox : Bytes) :
    ∃ next inbox' sent, leader.Move inbox next inbox' sent := by
  cases leader with
  | done value =>
    have hnil := (List.append_eq_nil_iff.mp h.1).1
    exact absurd (List.map_eq_nil_iff.mp hnil) hbytes
  | read size next =>
    obtain ⟨hsize, front, rest, hacts, hlength, _⟩ := h
    have hfront : front ≠ [] := by
      rintro rfl
      rw [List.length_nil] at hlength
      omega
    exact absurd hacts.symm (takes_ne_sends hfront hbytes)
  | write data next =>
    obtain ⟨hdata, _⟩ := h
    exact ⟨_, _, _, .write_all hdata⟩
  | flush next => exact ⟨_, _, _, .flush⟩
  | report event next => exact ⟨_, _, _, .report⟩

/-- A session with nothing left to send or to take is done or can go on. -/
theorem Session.Follows.move_of_nil (h : leader.Follows [] v) (inbox : Bytes) :
    leader = .done v ∨ ∃ next inbox' sent, leader.Move inbox next inbox' sent := by
  cases leader with
  | done value => exact .inl (by rw [h.2])
  | read size next =>
    obtain ⟨hsize, front, rest, hacts, hlength, _⟩ := h
    have hnil := (List.append_eq_nil_iff.mp hacts.symm).1
    rw [List.map_eq_nil_iff.mp hnil, List.length_nil] at hlength
    omega
  | write data next =>
    obtain ⟨hdata, rest, hacts, _⟩ := h
    have hnil := (List.append_eq_nil_iff.mp hacts.symm).1
    exact absurd (List.map_eq_nil_iff.mp hnil) hdata
  | flush next => exact .inr ⟨_, _, _, .flush⟩
  | report event next => exact .inr ⟨_, _, _, .report⟩

/-- **Nobody waits for the other in vain**: unless both are done, one of them can go on. -/
theorem Leads.progress (h : Leads leader follower flight v w) (inbox payload : Bytes) :
    (leader = .done v ∧ follower = .done w ∧ flight = []) ∨
      (∃ next inbox' sent, leader.Move inbox next inbox' sent) ∨
      ∃ next inbox' sent, follower.Move (flight ++ payload) next inbox' sent := by
  obtain ⟨acts, hleader, hfollower⟩ := h
  cases follower with
  | done value =>
    obtain ⟨hnil, rfl⟩ := hfollower
    obtain ⟨hflight, hduals⟩ := List.append_eq_nil_iff.mp hnil
    rw [List.map_eq_nil_iff.mp hduals] at hleader
    obtain hdone | hmove := hleader.move_of_nil inbox
    · exact .inl ⟨hdone, rfl, List.map_eq_nil_iff.mp hflight⟩
    · exact .inr (.inl hmove)
  | read size next =>
    obtain ⟨hsize, bytes, rest, hacts, hlength, _⟩ := hfollower
    cases flight with
    | cons b flight =>
      have hmove : Session.Move (.read size next) ([b] ++ (flight ++ payload)) _ _ _ :=
        .read (List.cons_ne_nil b []) hsize
      exact .inr (.inr ⟨_, _, _, hmove⟩)
    | nil =>
      -- what the follower waits for is what the leader is to send next
      have hbytes : bytes ≠ [] := by
        rintro rfl
        rw [List.length_nil] at hlength
        omega
      have hdual := congrArg duals hacts
      simp only [Act.takes_nil, List.nil_append, Act.duals_duals, Act.duals_append,
        Act.duals_takes] at hdual
      rw [hdual] at hleader
      exact .inr (.inl (hleader.move_of_sends hbytes inbox))
  | write data next =>
    obtain ⟨hdata, _⟩ := hfollower
    exact .inr (.inr ⟨_, _, _, .write_all hdata⟩)
  | flush next => exact .inr (.inr ⟨_, _, _, .flush⟩)
  | report event next => exact .inr (.inr ⟨_, _, _, .report⟩)

end

/-! ## The invariant -/

namespace Link

variable {α β : Type} {link next : Link α β} {v : α} {w : β}

/-- One of the parties leads by the bytes in flight, there is nothing else in the channels but
payload, and payload comes only from a party that is done. -/
structure Agrees (link : Link α β) (v : α) (w : β) : Prop where
  upPayload : link.upPayload ≠ [] → ∃ value, link.client = .done value
  downPayload : link.downPayload ≠ [] → ∃ value, link.server = .done value
  inFlight :
    (∃ flight, link.up = flight ++ link.upPayload ∧ link.down = link.downPayload ∧
      Leads link.client link.server flight v w) ∨
    ∃ flight, link.down = flight ++ link.downPayload ∧ link.up = link.upPayload ∧
      Leads link.server link.client flight w v

theorem Agrees.swap (h : link.Agrees v w) : link.swap.Agrees w v :=
  ⟨h.downPayload, h.upPayload, h.inFlight.symm⟩

theorem agrees_start {client : Session α} {server : Session β} {acts : List Act}
    (hclient : client.Follows acts v) (hserver : server.Follows (duals acts) w) :
    (start client server).Agrees v w :=
  ⟨fun h => absurd rfl h, fun h => absurd rfl h, .inl ⟨[], rfl, rfl, acts, hclient, hserver⟩⟩

/-- A party that goes on is not done, so it has sent no payload. -/
theorem Agrees.upPayload_eq_nil (h : link.Agrees v w) {client : Session α}
    {inbox down sent : Bytes} (hmove : link.client.Move inbox client down sent) :
    link.upPayload = [] := by
  by_contra hsome
  obtain ⟨value, hdone⟩ := h.upPayload hsome
  rw [hdone] at hmove
  cases hmove

theorem Agrees.client_move (h : link.Agrees v w) {client : Session α} {down sent : Bytes}
    (hmove : link.client.Move link.down client down sent) :
    Agrees { link with client, down, up := link.up ++ sent } v w := by
  have hnone := h.upPayload_eq_nil hmove
  refine ⟨fun hsome => absurd hnone hsome, h.downPayload, ?_⟩
  obtain ⟨flight, hup, hdown, hleads⟩ | ⟨flight, hdown, hup, hleads⟩ := h.inFlight
  · obtain ⟨rfl, hleads'⟩ := hleads.leader_move hmove fun hsome =>
      h.downPayload fun hnil => hsome (hdown.trans hnil)
    refine .inl ⟨flight ++ sent, ?_, hdown, hleads'⟩
    show link.up ++ sent = flight ++ sent ++ link.upPayload
    rw [hup, hnone, List.append_nil, List.append_nil]
  · obtain ⟨flight', rfl, rfl, hleads'⟩ | ⟨_, rfl, hleads'⟩ :=
      hleads.follower_move hmove hdown h.downPayload
    · refine .inr ⟨flight', rfl, ?_, hleads'⟩
      show link.up ++ [] = link.upPayload
      rw [List.append_nil, hup]
    · refine .inl ⟨sent, ?_, rfl, hleads'⟩
      show link.up ++ sent = sent ++ link.upPayload
      rw [hup, hnone, List.append_nil, List.nil_append]

theorem Agrees.move (h : link.Agrees v w) (hmove : Move link next) : next.Agrees v w := by
  cases hmove with
  | client hclient => exact h.client_move hclient
  | server hserver => exact (h.swap.client_move hserver).swap

theorem Agrees.client_payload (h : link.Agrees v w) {value : α} (hdone : link.client = .done value)
    (bytes : Bytes) :
    Agrees { link with
      up := link.up ++ bytes
      upPayload := link.upPayload ++ bytes } v w := by
  refine ⟨fun _ => ⟨value, hdone⟩, h.downPayload, ?_⟩
  obtain ⟨flight, hup, hdown, hleads⟩ | ⟨flight, hdown, hup, hleads⟩ := h.inFlight
  · refine .inl ⟨flight, ?_, hdown, hleads⟩
    show link.up ++ bytes = flight ++ (link.upPayload ++ bytes)
    rw [hup, List.append_assoc]
  · refine .inr ⟨flight, hdown, ?_, hleads⟩
    show link.up ++ bytes = link.upPayload ++ bytes
    rw [hup]

theorem Agrees.step (h : link.Agrees v w) (hstep : Step link next) : next.Agrees v w := by
  cases hstep with
  | move hmove => exact h.move hmove
  | clientPayload hdone bytes => exact h.client_payload hdone bytes
  | serverPayload hdone bytes =>
    exact (h.swap.client_payload hdone bytes).swap

/-- **The invariant holds in every reachable state** of two parties that follow dual protocols. -/
theorem agrees_of_reachable {client : Session α} {server : Session β} {acts : List Act}
    (hclient : client.Follows acts v) (hserver : server.Follows (duals acts) w)
    (h : ReflTransGen Step (start client server) link) : link.Agrees v w := by
  induction h with
  | refl => exact agrees_start hclient hserver
  | tail _ hstep ih => exact ih.step hstep

/-! ## What follows from it -/

/-- No reachable state is stuck. -/
theorem Agrees.progress (h : link.Agrees v w) : link.Over ∨ ∃ next, Move link next := by
  obtain ⟨flight, hup, _, hleads⟩ | ⟨flight, hdown, _, hleads⟩ := h.inFlight
  · obtain ⟨hclient, hserver, _⟩ | ⟨_, _, _, hmove⟩ | ⟨_, _, _, hmove⟩ :=
      hleads.progress link.down link.upPayload
    · exact .inl ⟨⟨v, hclient⟩, w, hserver⟩
    · exact .inr ⟨_, .client hmove⟩
    · rw [← hup] at hmove
      exact .inr ⟨_, .server hmove⟩
  · obtain ⟨hserver, hclient, _⟩ | ⟨_, _, _, hmove⟩ | ⟨_, _, _, hmove⟩ :=
      hleads.progress link.up link.downPayload
    · exact .inl ⟨⟨v, hclient⟩, w, hserver⟩
    · exact .inr ⟨_, .server hmove⟩
    · rw [← hdown] at hmove
      exact .inr ⟨_, .client hmove⟩

/-- Where both are done, they have the values of the protocol and have left only payload. -/
theorem Agrees.of_over (h : link.Agrees v w) (hover : link.Over) :
    link.client = .done v ∧ link.server = .done w ∧ link.up = link.upPayload ∧
      link.down = link.downPayload := by
  obtain ⟨⟨value, hclient⟩, ⟨value', hserver⟩⟩ := hover
  obtain ⟨flight, hup, hdown, acts, hleader, hfollower⟩ |
    ⟨flight, hdown, hup, acts, hleader, hfollower⟩ := h.inFlight
  · rw [hclient] at hleader ⊢
    rw [hserver] at hfollower ⊢
    obtain ⟨_, rfl⟩ := hleader
    obtain ⟨hnil, rfl⟩ := hfollower
    have hflight := List.map_eq_nil_iff.mp (List.append_eq_nil_iff.mp hnil).1
    exact ⟨rfl, rfl, by rw [hup, hflight, List.nil_append], hdown⟩
  · rw [hserver] at hleader ⊢
    rw [hclient] at hfollower ⊢
    obtain ⟨_, rfl⟩ := hleader
    obtain ⟨hnil, rfl⟩ := hfollower
    have hflight := List.map_eq_nil_iff.mp (List.append_eq_nil_iff.mp hnil).1
    exact ⟨rfl, rfl, hup, by rw [hdown, hflight, List.nil_append]⟩

/-! ## Every run comes to its end -/

/-- No two parties go on for ever. -/
theorem move_wellFounded : WellFounded fun next link : Link α β => Move link next := by
  refine Subrelation.wf ?_ (InvImage.wf (fun link : Link α β => (link.client, link.server))
    (Session.move_wellFounded.prod_gameAdd Session.move_wellFounded))
  intro next link hmove
  cases hmove with
  | client h => exact .fst ⟨_, _, _, h⟩
  | server h => exact .snd ⟨_, _, _, h⟩

/-- From every reachable state the parties come to the end, whatever they do. -/
theorem Agrees.completes (h : link.Agrees v w) :
    ∃ last, ReflTransGen Move link last ∧ last.Over := by
  induction link using move_wellFounded.induction with
  | _ link ih =>
    obtain hover | ⟨next, hmove⟩ := h.progress
    · exact ⟨link, .refl, hover⟩
    · obtain ⟨last, hrun, hover⟩ := ih next hmove (h.move hmove)
      exact ⟨last, .head hmove hrun, hover⟩

end Link

end SniffProxy
