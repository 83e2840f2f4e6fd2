import Mathlib.Algebra.GroupWithZero.Nat
import SniffProxy.Proofs.Stream.Taking

/-!
# Bytes that arrive in pieces

A handshake that takes each of its fields with a single read depends on how the bytes are cut: a
field that is spread over two events is a short read. Nothing else can come of a cut.

* `Script.bringing` — a stream with pieces in front, one event each.
* `Piece.takeAll?_eq_none_iff` — fields can be taken unless a border of the pieces lies inside one.
* `Handshake.TakesFields` — a handshake takes some bytes field by field; `TakesFields.bind` puts two
  such handshakes together, and `TakesFields.takes` lets the bytes arrive at once.
* `Handshake.Steady` — cutting the bytes changes nothing, unless it makes a read short.
-/

namespace SniffProxy

/-! ## Pieces -/

/-- Bytes that arrive as one event, and the time from which they are there. -/
structure Piece where
  due : Nat
  bytes : Bytes
  ne_nil : bytes ≠ []

namespace Piece

def event (piece : Piece) : ReadEvent :=
  ⟨piece.due, .data piece.bytes⟩

/-- All the bytes of some pieces. -/
def content (pieces : List Piece) : Bytes :=
  pieces.flatMap Piece.bytes

/-- Bytes in one piece. No bytes are no piece. -/
def single (due : Nat) (bytes : Bytes) : List Piece :=
  if h : bytes = [] then [] else [⟨due, bytes, h⟩]

@[simp] theorem content_nil : content [] = [] := rfl

@[simp] theorem content_cons (piece : Piece) (rest : List Piece) :
    content (piece :: rest) = piece.bytes ++ content rest := rfl

@[simp] theorem content_append (front back : List Piece) :
    content (front ++ back) = content front ++ content back := by
  simp [content]

@[simp] theorem single_nil (due : Nat) : single due [] = [] := rfl

@[simp] theorem content_single (due : Nat) (bytes : Bytes) : content (single due bytes) = bytes := by
  by_cases h : bytes = [] <;> simp [single, h]

/-- What one read of just so many bytes takes, and the pieces behind it; nothing if the first piece
is shorter. -/
def take? (count : Nat) : List Piece → Option (Bytes × List Piece)
  | [] => none
  | piece :: rest =>
    if count ≤ piece.bytes.length then
      some (piece.bytes.take count, single piece.due (piece.bytes.drop count) ++ rest)
    else none

theorem content_take? {count : Nat} {pieces rest : List Piece} {bytes : Bytes}
    (h : take? count pieces = some (bytes, rest)) :
    content pieces = bytes ++ content rest ∧ bytes.length = count := by
  cases pieces with
  | nil => cases h
  | cons piece more =>
    rw [take?] at h
    split at h
    · rename_i hle
      cases h
      refine ⟨?_, by simp [hle]⟩
      rw [content_append, content_single, ← List.append_assoc, List.take_append_drop, content_cons]
    · cases h

theorem take?_single {count : Nat} (hpos : 0 < count) (due : Nat) (bytes : Bytes) :
    take? count (single due bytes) =
      if count ≤ bytes.length then some (bytes.take count, single due (bytes.drop count))
      else none := by
  by_cases h : bytes = []
  · subst h
    rw [single_nil, take?, if_neg (by simp; omega)]
  · rw [single, dif_neg h, take?, List.append_nil]

theorem take?_single_append {count : Nat} (hpos : 0 < count) (due : Nat) {bytes : Bytes}
    (hlength : bytes.length = count) (rest : Bytes) :
    take? count (single due (bytes ++ rest)) = some (bytes, single due rest) := by
  rw [take?_single hpos, if_pos (by simp; omega), List.take_left' hlength, List.drop_left' hlength]

/-- The pieces behind fields of these widths, each taken by one read. -/
def takeAll? : (widths : List Nat) → List Piece → Option (List Piece)
  | [], pieces => some pieces
  | width :: widths, pieces =>
    match take? width pieces with
    | some (_, rest) => takeAll? widths rest
    | none => none

theorem takeAll?_append (widths more : List Nat) (pieces : List Piece) :
    takeAll? (widths ++ more) pieces = (takeAll? widths pieces).bind (takeAll? more) := by
  induction widths generalizing pieces with
  | nil => rfl
  | cons width widths ih =>
    rw [List.cons_append, takeAll?, takeAll?]
    cases take? width pieces with
    | none => rfl
    | some taken => exact ih taken.2

theorem content_takeAll? {widths : List Nat} {pieces rest : List Piece}
    (h : takeAll? widths pieces = some rest) :
    ∃ front, content pieces = front ++ content rest ∧ front.length = widths.sum := by
  induction widths generalizing pieces with
  | nil =>
    cases h
    exact ⟨[], rfl, rfl⟩
  | cons width widths ih =>
    rw [takeAll?] at h
    split at h
    · rename_i bytes behind htake
      obtain ⟨hbytes, hwidth⟩ := content_take? htake
      obtain ⟨front, hfront, hsum⟩ := ih h
      refine ⟨bytes ++ front, by rw [hbytes, hfront, List.append_assoc], ?_⟩
      simp [hwidth, hsum]
    · cases h

theorem takeAll?_single {widths : List Nat} (hpos : ∀ width ∈ widths, 0 < width) (due : Nat)
    {bytes : Bytes} (payload : Bytes) (hsum : widths.sum = bytes.length) :
    takeAll? widths (single due (bytes ++ payload)) = some (single due payload) := by
  induction widths generalizing bytes with
  | nil =>
    have hnil : bytes = [] := List.eq_nil_of_length_eq_zero hsum.symm
    rw [hnil]
    rfl
  | cons width widths ih =>
    rw [List.sum_cons] at hsum
    have hle : width ≤ bytes.length := by omega
    rw [takeAll?, take?_single (hpos width (by simp)), if_pos (by simp; omega)]
    dsimp only
    rw [List.drop_append_of_le_length hle]
    exact ih (fun w hw => hpos w (by simp [hw])) (by simp; omega)

/-! ## Borders -/

/-- A place between two pieces, or at an end, counted in bytes from the front. -/
def IsBorder (pieces : List Piece) (place : Nat) : Prop :=
  ∃ front, front <+: pieces ∧ place = (content front).length

/-- A place strictly inside a field, where fields of these widths stand one behind the other. -/
def InField (widths : List Nat) (place : Nat) : Prop :=
  ∃ before width after, widths = before ++ width :: after ∧ before.sum < place ∧
    place < before.sum + width

theorem InField.pos {widths : List Nat} {place : Nat} (h : InField widths place) : 0 < place := by
  obtain ⟨before, _, _, _, hlow, _⟩ := h
  omega

theorem inField_cons {width : Nat} {widths : List Nat} {place : Nat} :
    InField (width :: widths) place ↔
      (0 < place ∧ place < width) ∨ ∃ later, place = width + later ∧ InField widths later := by
  constructor
  · rintro ⟨before, field, after, hsplit, hlow, hhigh⟩
    cases before with
    | nil =>
      cases hsplit
      exact .inl ⟨hlow, by simpa using hhigh⟩
    | cons first before =>
      cases hsplit
      simp only [List.sum_cons] at hlow hhigh
      exact .inr ⟨place - width, by omega, before, field, after, rfl, by omega, by omega⟩
  · rintro (⟨hlow, hhigh⟩ | ⟨later, rfl, before, field, after, rfl, hlow, hhigh⟩)
    · exact ⟨[], width, widths, rfl, hlow, by simpa using hhigh⟩
    · exact ⟨width :: before, field, after, rfl, by simp; omega, by simp; omega⟩

theorem isBorder_cons {piece : Piece} {rest : List Piece} {place : Nat} :
    IsBorder (piece :: rest) place ↔
      place = 0 ∨ ∃ later, place = piece.bytes.length + later ∧ IsBorder rest later := by
  constructor
  · rintro ⟨front, hfront, rfl⟩
    cases front with
    | nil => exact .inl rfl
    | cons first front =>
      obtain ⟨rfl, hmore⟩ := List.cons_prefix_cons.mp hfront
      exact .inr ⟨(content front).length, by simp, front, hmore, rfl⟩
  · rintro (rfl | ⟨later, rfl, front, hfront, rfl⟩)
    · exact ⟨[], List.nil_prefix, rfl⟩
    · exact ⟨piece :: front, (List.prefix_cons_inj piece).mpr hfront, by simp⟩

/-- The borders behind a field that was taken are the ones of the pieces that are left. -/
theorem isBorder_of_take? {count : Nat} {pieces rest : List Piece} {bytes : Bytes}
    (h : take? count pieces = some (bytes, rest)) {place : Nat} (hplace : 0 < place) :
    IsBorder rest place ↔ IsBorder pieces (count + place) := by
  cases pieces with
  | nil => cases h
  | cons piece more =>
    rw [take?] at h
    split at h
    · rename_i hle
      cases h
      by_cases hall : piece.bytes.drop count = []
      · -- the field ends with its piece
        have hlength : piece.bytes.length = count := by
          rw [List.drop_eq_nil_iff] at hall
          omega
        rw [hall, single_nil, List.nil_append, isBorder_cons, hlength]
        constructor
        · exact fun hmore => .inr ⟨place, rfl, hmore⟩
        · rintro (hzero | ⟨later, heq, hmore⟩)
          · omega
          · obtain rfl : place = later := by omega
            exact hmore
      · -- the rest of the piece is in front of the others
        rw [single, dif_neg hall, List.singleton_append, isBorder_cons, isBorder_cons,
          List.length_drop]
        constructor
        · rintro (hzero | ⟨later, heq, hmore⟩)
          · omega
          · exact .inr ⟨later, by omega, hmore⟩
        · rintro (hzero | ⟨later, heq, hmore⟩)
          · omega
          · exact .inr ⟨later, by omega, hmore⟩
    · cases h

/-- A field can be taken unless a border lies inside it. -/
theorem take?_eq_none_iff {count : Nat} {pieces : List Piece} (hpos : 0 < count)
    (hlength : count ≤ (content pieces).length) :
    take? count pieces = none ↔ ∃ place, IsBorder pieces place ∧ 0 < place ∧ place < count := by
  cases pieces with
  | nil => simp at hlength; omega
  | cons piece more =>
    have hpiece : 0 < piece.bytes.length := List.length_pos_iff.mpr piece.ne_nil
    have hend : IsBorder (piece :: more) piece.bytes.length :=
      isBorder_cons.mpr (.inr ⟨0, rfl, [], List.nil_prefix, rfl⟩)
    rw [take?]
    split
    · refine ⟨nofun, ?_⟩
      rintro ⟨place, hborder, hlow, hhigh⟩
      obtain rfl | ⟨later, rfl, -⟩ := isBorder_cons.mp hborder <;> omega
    · exact ⟨fun _ => ⟨_, hend, hpiece, by omega⟩, fun _ => rfl⟩

/-- **Fields can be taken one after another unless a border lies inside one of them.** -/
theorem takeAll?_eq_none_iff {widths : List Nat} {pieces : List Piece}
    (hpos : ∀ width ∈ widths, 0 < width) (hsum : widths.sum ≤ (content pieces).length) :
    takeAll? widths pieces = none ↔ ∃ place, IsBorder pieces place ∧ InField widths place := by
  induction widths generalizing pieces with
  | nil =>
    refine ⟨nofun, ?_⟩
    rintro ⟨_, _, before, _, _, hsplit, _⟩
    simp at hsplit
  | cons width widths ih =>
    rw [List.sum_cons] at hsum
    have hfirst := @take?_eq_none_iff width pieces (hpos width (by simp)) (by omega)
    rw [takeAll?]
    split
    · rename_i bytes rest htake
      obtain ⟨hbytes, hwidth⟩ := content_take? htake
      have hlength := congrArg List.length hbytes
      rw [List.length_append] at hlength
      rw [ih (fun w hw => hpos w (by simp [hw])) (by omega)]
      constructor
      · rintro ⟨place, hborder, hfield⟩
        exact ⟨width + place, (isBorder_of_take? htake hfield.pos).mp hborder,
          inField_cons.mpr (.inr ⟨place, rfl, hfield⟩)⟩
      · rintro ⟨place, hborder, hfield⟩
        obtain hinside | ⟨later, rfl, hlater⟩ := inField_cons.mp hfield
        · have hnone := hfirst.mpr ⟨place, hborder, hinside⟩
          rw [htake] at hnone
          cases hnone
        · exact ⟨later, (isBorder_of_take? htake hlater.pos).mpr hborder, hlater⟩
    · rename_i htake
      obtain ⟨place, hborder, hinside⟩ := hfirst.mp htake
      exact ⟨fun _ => ⟨place, hborder, inField_cons.mpr (.inl hinside)⟩, fun _ => rfl⟩

end Piece

/-! ## Streams that bring pieces -/

namespace Script

/-- The stream with pieces in front. -/
def bringing (script : Script) (pieces : List Piece) : Script :=
  { script with events := pieces.map Piece.event ++ script.events }

theorem holding_eq_bringing (script : Script) (due : Nat) (bytes : Bytes) :
    script.holding due bytes = script.bringing (Piece.single due bytes) := by
  by_cases h : bytes = []
  · subst h
    rfl
  · rw [holding_of_ne h, Piece.single, dif_neg h]
    rfl

/-- Nothing more comes, and a reader learns so. -/
def Ended (script : Script) : Prop :=
  (script.events = [] ∧ script.afterwards = .closed) ∨
    ∃ due rest, script.events = ⟨due, .endOfStream⟩ :: rest

theorem Ended.read {script : Script} (h : script.Ended) {count : Nat} (hpos : 0 < count)
    (now : Nat) : ∃ time, script.read count now = .ready time (.ok []) script.events := by
  rw [Script.read, if_neg (by omega)]
  obtain ⟨hevents, hclosed⟩ | ⟨due, rest, hevents⟩ := h
  · rw [hevents, hclosed]
    exact ⟨now, rfl⟩
  · rw [hevents]
    exact ⟨max now due, rfl⟩

/-- One read takes what it can from the first piece and never joins two. -/
theorem read_bringing {count : Nat} (hpos : 0 < count) (script : Script) (piece : Piece)
    (rest : List Piece) (now : Nat) :
    (script.bringing (piece :: rest)).read count now =
      .ready (max now piece.due) (.ok (piece.bytes.take count))
        (script.bringing (Piece.single piece.due (piece.bytes.drop count) ++ rest)).events := by
  obtain ⟨due, bytes, hne⟩ := piece
  cases bytes with
  | nil => exact absurd rfl hne
  | cons b bytes =>
    rw [Script.read, if_neg (by omega), bringing, List.map_cons, List.cons_append, Piece.event,
      readEvents]
    dsimp only
    split
    · rename_i hlt
      have hdrop : (b :: bytes).drop count ≠ [] := by
        rw [ne_eq, List.drop_eq_nil_iff]
        omega
      rw [Piece.single, dif_neg hdrop]
      rfl
    · rename_i hge
      rw [List.take_of_length_le (by omega), List.drop_of_length_le (by omega), Piece.single_nil]
      rfl

end Script

namespace Handshake

variable {α β : Type}

/-! ## How a handshake settles -/

/-- On the stream that brings these pieces, the handshake ends with this result and leaves the
rest. -/
def Settles (handshake : Handshake α) (script : Script) (pieces : List Piece)
    (result : Except ProxyError α) (rest : List Piece) (log : List LogEvent) : Prop :=
  ∀ now, ∃ time, handshake.session.run none now (script.bringing pieces) =
    .finished result time (script.bringing rest) log

section

variable {script : Script} {pieces rest last : List Piece} {log more : List LogEvent}

theorem Settles.bind {x : Handshake α} {f : α → Handshake β} {a : α}
    {result : Except ProxyError β} (hx : x.Settles script pieces (.ok a) rest log)
    (hf : (f a).Settles script rest result last more) :
    (x >>= f).Settles script pieces result last (log ++ more) := by
  intro now
  obtain ⟨time, hfirst⟩ := hx now
  obtain ⟨final, hsecond⟩ := hf time
  refine ⟨final, ?_⟩
  rw [session_bind, Session.run_bind_of_finished hfirst]
  dsimp only
  rw [hsecond, Session.foldr_logged_finished]

theorem Settles.bind_error {x : Handshake α} {error : ProxyError}
    (hx : x.Settles script pieces (.error error) rest log) (f : α → Handshake β) :
    (x >>= f).Settles script pieces (.error error) rest log := by
  intro now
  obtain ⟨time, hfirst⟩ := hx now
  refine ⟨time, ?_⟩
  rw [session_bind, Session.run_bind_of_finished hfirst]
  dsimp only
  rw [Session.run, Session.foldr_logged_finished, List.append_nil]

theorem settles_throw (error : ProxyError) :
    (throw error : Handshake α).Settles script pieces (.error error) pieces [] :=
  fun now => ⟨now, rfl⟩

/-- One read of so many bytes takes just them or is short. -/
theorem run_readOnce_of_read {count now time : Nat} {bytes : Bytes} {events : List ReadEvent}
    (h : script.read count now = .ready time (.ok bytes) events) :
    (readOnce count).session.run none now script =
      .finished (if bytes.length = count then .ok bytes else .error (.malformedHeader .shortRead))
        time { script with events } [] := by
  have hread : (Handshake.read count).session.run none now script =
      .finished (.ok bytes) time { script with events } [] := by
    show (Session.read count _).run none now script = _
    rw [Session.run, h]
    rfl
  rw [readOnce, session_bind, Session.run_bind_of_quiet hread]
  dsimp only
  split <;> rfl

theorem settles_readOnce {count : Nat} {bytes : Bytes} (hpos : 0 < count)
    (h : Piece.take? count pieces = some (bytes, rest)) (script : Script) :
    (readOnce count).Settles script pieces (.ok bytes) rest [] := by
  intro now
  cases pieces with
  | nil => cases h
  | cons piece more =>
    have hrun := run_readOnce_of_read (script.read_bringing hpos piece more now)
    rw [Piece.take?] at h
    split at h
    · rename_i hle
      cases h
      rw [if_pos (by simp [hle])] at hrun
      exact ⟨_, hrun⟩
    · cases h

/-- A read across a border is short, and so is one at the end of the stream. -/
theorem settles_readOnce_short {count : Nat} (hpos : 0 < count)
    (h : Piece.take? count pieces = none) (hend : pieces ≠ [] ∨ script.Ended) :
    (readOnce count).Settles script pieces (.error (.malformedHeader .shortRead)) pieces.tail
      [] := by
  intro now
  cases pieces with
  | nil =>
    have hended : script.Ended := hend.resolve_left (· rfl)
    obtain ⟨time, hread⟩ := hended.read hpos now
    have hrun := run_readOnce_of_read hread
    rw [if_neg (by simp; omega)] at hrun
    exact ⟨time, hrun⟩
  | cons piece more =>
    have hrun := run_readOnce_of_read (script.read_bringing hpos piece more now)
    rw [Piece.take?] at h
    split at h
    · cases h
    · rename_i hlt
      rw [if_neg (by simp; omega), List.drop_of_length_le (by omega), Piece.single_nil] at hrun
      exact ⟨_, hrun⟩

end

/-! ## Taking field by field -/

/-- The handshake takes these bytes off the front as fields of these widths, each with one read, and
answers the value. Where the pieces do not let a field be taken, it ends in a short read. -/
structure TakesFields (handshake : Handshake α) (bytes : Bytes) (widths : List Nat) (value : α) :
    Prop where
  pos : ∀ width ∈ widths, 0 < width
  sum : widths.sum = bytes.length
  settles : ∀ ⦃pieces rest : List Piece⦄ ⦃payload : Bytes⦄,
    Piece.content pieces = bytes ++ payload → Piece.takeAll? widths pieces = some rest →
    ∀ script, handshake.Settles script pieces (.ok value) rest []
  short : ∀ ⦃pieces : List Piece⦄ ⦃payload : Bytes⦄,
    Piece.content pieces = bytes ++ payload → Piece.takeAll? widths pieces = none →
    ∀ script, ∃ rest, handshake.Settles script pieces (.error (.malformedHeader .shortRead)) rest []

theorem TakesFields.bind {x : Handshake α} {f : α → Handshake β} {bytes more : Bytes}
    {widths further : List Nat} {a : α} {b : β} (hx : x.TakesFields bytes widths a)
    (hf : (f a).TakesFields more further b) :
    (x >>= f).TakesFields (bytes ++ more) (widths ++ further) b where
  pos := by
    intro width hmem
    obtain hmem | hmem := List.mem_append.mp hmem
    · exact hx.pos width hmem
    · exact hf.pos width hmem
  sum := by rw [List.sum_append, hx.sum, hf.sum, List.length_append]
  settles := by
    intro pieces rest payload hcontent htake script
    rw [List.append_assoc] at hcontent
    rw [Piece.takeAll?_append, Option.bind_eq_some_iff] at htake
    obtain ⟨between, hfirst, hsecond⟩ := htake
    obtain ⟨front, hfront, hsum⟩ := Piece.content_takeAll? hfirst
    have hlength : front.length = bytes.length := by rw [hsum, hx.sum]
    obtain ⟨-, hbetween⟩ := List.append_inj (hfront.symm.trans hcontent) hlength
    exact (hx.settles hcontent hfirst script).bind (hf.settles hbetween hsecond script)
  short := by
    intro pieces payload hcontent htake script
    rw [List.append_assoc] at hcontent
    rw [Piece.takeAll?_append] at htake
    cases hfirst : Piece.takeAll? widths pieces with
    | none =>
      obtain ⟨rest, hshort⟩ := hx.short hcontent hfirst script
      exact ⟨rest, hshort.bind_error f⟩
    | some between =>
      rw [hfirst] at htake
      obtain ⟨front, hfront, hsum⟩ := Piece.content_takeAll? hfirst
      have hlength : front.length = bytes.length := by rw [hsum, hx.sum]
      obtain ⟨-, hbetween⟩ := List.append_inj (hfront.symm.trans hcontent) hlength
      obtain ⟨rest, hshort⟩ := hf.short hbetween htake script
      exact ⟨rest, (hx.settles hcontent hfirst script).bind hshort⟩

/-- Going on without taking more. -/
theorem TakesFields.bind_nil {x : Handshake α} {f : α → Handshake β} {bytes : Bytes}
    {widths : List Nat} {a : α} {b : β} (hx : x.TakesFields bytes widths a)
    (hf : (f a).TakesFields [] [] b) : (x >>= f).TakesFields bytes widths b := by
  have h := hx.bind hf
  rwa [List.append_nil, List.append_nil] at h

theorem takesFields_ofExcept (value : α) : (ofExcept (.ok value)).TakesFields [] [] value where
  pos := nofun
  sum := rfl
  settles := by
    intro pieces rest payload _ htake script now
    cases htake
    exact ⟨now, rfl⟩
  short := nofun

theorem takesFields_readOnce {bytes : Bytes} {count : Nat} (hlength : bytes.length = count)
    (hpos : 0 < count) : (readOnce count).TakesFields bytes [count] bytes where
  pos := by simpa using hpos
  sum := by simp [hlength]
  settles := by
    intro pieces rest payload hcontent htake script
    rw [Piece.takeAll?] at htake
    split at htake
    · rename_i taken behind hone
      cases htake
      obtain ⟨htaken, hcount⟩ := Piece.content_take? hone
      obtain ⟨rfl, -⟩ := List.append_inj (htaken.symm.trans hcontent) (by omega)
      exact settles_readOnce hpos hone script
    · cases htake
  short := by
    intro pieces payload hcontent htake script
    rw [Piece.takeAll?] at htake
    split at htake
    · cases htake
    · rename_i hone
      refine ⟨_, settles_readOnce_short hpos hone (.inl ?_)⟩
      rintro rfl
      have hnil := congrArg List.length hcontent
      simp at hnil
      omega

/-- Bytes that arrive at once have no border inside. -/
theorem TakesFields.takes {handshake : Handshake α} {bytes : Bytes} {widths : List Nat} {value : α}
    (h : handshake.TakesFields bytes widths value) : handshake.Takes bytes value := by
  intro payload script due now
  have htake := Piece.takeAll?_single h.pos due payload h.sum
  rw [Script.holding_eq_bringing, Script.holding_eq_bringing]
  exact h.settles (Piece.content_single due _) htake script now

/-! ## Steady handshakes -/

/-- However bytes are cut that end with the stream, the result is the one for the bytes at once, or
a short read. Unless the read is short, the same bytes are left. -/
def Steady (handshake : Handshake α) : Prop :=
  ∀ (pieces : List Piece) (due : Nat) (script whole : Script), script.Ended → whole.Ended →
    ∃ result left log cut rest log',
      handshake.Settles whole (Piece.single due (Piece.content pieces)) result
        (Piece.single due left) log ∧
      handshake.Settles script pieces cut rest log' ∧
      (cut = .error (.malformedHeader .shortRead) ∨ cut = result ∧ Piece.content rest = left)

/-- A handshake that reads nothing. -/
theorem steady_of_run {handshake : Handshake α} {result : Except ProxyError α}
    {log : List LogEvent}
    (h : ∀ now script, handshake.session.run none now script = .finished result now script log) :
    handshake.Steady :=
  fun pieces _ _ _ _ _ => ⟨result, Piece.content pieces, log, result, pieces, log,
    fun now => ⟨now, h now _⟩, fun now => ⟨now, h now _⟩, .inr ⟨rfl, rfl⟩⟩

theorem steady_ofExcept (result : Except ProxyError α) : (ofExcept result).Steady :=
  steady_of_run fun _ _ => rfl

theorem steady_throw (error : ProxyError) : (throw error : Handshake α).Steady :=
  steady_of_run fun _ _ => rfl

theorem steady_readOnce {count : Nat} (hpos : 0 < count) : (readOnce count).Steady := by
  intro pieces due script whole hscript hwhole
  have hsingle := Piece.take?_single hpos due (Piece.content pieces)
  cases htake : Piece.take? count pieces with
  | none =>
    have hshort := settles_readOnce_short hpos htake (.inr hscript)
    split at hsingle
    · exact ⟨_, _, _, _, _, _, settles_readOnce hpos hsingle whole, hshort, .inl rfl⟩
    · have htail : (Piece.single due (Piece.content pieces)).tail = Piece.single due [] := by
        unfold Piece.single
        split <;> rfl
      have hall := settles_readOnce_short hpos hsingle (.inr hwhole)
      rw [htail] at hall
      exact ⟨_, _, _, _, _, _, hall, hshort, .inl rfl⟩
  | some taken =>
    obtain ⟨bytes, rest⟩ := taken
    obtain ⟨hcontent, hlength⟩ := Piece.content_take? htake
    have hfront := Piece.take?_single_append hpos due hlength (Piece.content rest)
    rw [← hcontent] at hfront
    exact ⟨_, _, _, _, _, _, settles_readOnce hpos hfront whole,
      settles_readOnce hpos htake script, .inr ⟨rfl, rfl⟩⟩

theorem Steady.bind {x : Handshake α} {f : α → Handshake β} (hx : x.Steady)
    (hf : ∀ a, (f a).Steady) : (x >>= f).Steady := by
  intro pieces due script whole hscript hwhole
  obtain ⟨result, left, log, cut, rest, log', hall, hcut, hsame⟩ :=
    hx pieces due script whole hscript hwhole
  cases result with
  | error error =>
    cases cut with
    | error fault =>
      refine ⟨_, _, _, _, _, _, hall.bind_error f, hcut.bind_error f, ?_⟩
      rcases hsame with hshort | ⟨hsame, hleft⟩
      · cases hshort
        exact .inl rfl
      · cases hsame
        exact .inr ⟨rfl, hleft⟩
    | ok a => rcases hsame with hshort | ⟨hsame, -⟩ <;> contradiction
  | ok a =>
    rcases hsame with rfl | ⟨rfl, rfl⟩
    · -- the cut has already made a read short, and the rest of the whole settles somehow
      obtain ⟨_, _, _, _, _, _, hmore, _⟩ :=
        hf a (Piece.single due left) due whole whole hwhole hwhole
      rw [Piece.content_single] at hmore
      exact ⟨_, _, _, _, _, _, hall.bind hmore, hcut.bind_error f, .inl rfl⟩
    · obtain ⟨_, _, _, _, _, _, hmore, hfurther, hend⟩ := hf a rest due script whole hscript hwhole
      exact ⟨_, _, _, _, _, _, hall.bind hmore, hcut.bind hfurther, hend⟩

end Handshake

end SniffProxy
