import SniffProxy.Stream.Script

/-!
# What a scripted stream delivers

The content of a script is the data it holds up to its end. Reads take it from the front, however
the script cuts it into events and whenever the events are due.

* `Script.content` — the bytes still to come; `Script.ends` — whether a reader comes to their end.
* `Delivers` — what one read may answer and what it leaves of the content.
* `Script.read_delivers` — every answer of a script is such an answer.
-/

namespace SniffProxy

/-- The bytes of an answer; a failure has none. -/
def answerBytes : Except IoError Bytes → Bytes
  | .ok bytes => bytes
  | .error _ => []

/-- A read of at most `size` bytes may give this answer and leave this rest: bytes come from the
front of the content, no bytes only at its end, and a failing read takes nothing. -/
def Delivers (size : Nat) (content : Bytes) (answer : Except IoError Bytes) (rest : Bytes) : Prop :=
  match answer with
  | .ok bytes => content = bytes ++ rest ∧ bytes.length ≤ size ∧ (bytes = [] → 0 < size → rest = [])
  | .error _ => content = rest

/-- The bytes of an answer were at the front of the content. -/
theorem Delivers.content_eq {size : Nat} {content : Bytes} {answer : Except IoError Bytes}
    {rest : Bytes} (h : Delivers size content answer rest) :
    content = answerBytes answer ++ rest := by
  cases answer with
  | error error => exact h
  | ok bytes => exact h.1

namespace Script

/-- The data of some events up to the first end of the stream. -/
def contentOf : List ReadEvent → Bytes
  | [] => []
  | event :: rest =>
    match event.delivery with
    | .data bytes => bytes ++ contentOf rest
    | .endOfStream => []
    | .failure _ => contentOf rest

/-- The bytes still to come. -/
def content (script : Script) : Bytes :=
  contentOf script.events

/-- Whether a reader that tries again after an interruption, and gives up at any other failure,
comes to the end of the stream. -/
def endsAfter (afterwards : Afterwards) : List ReadEvent → Bool
  | [] => afterwards = .closed
  | event :: rest =>
    match event.delivery with
    | .data _ => endsAfter afterwards rest
    | .endOfStream => true
    | .failure .interrupted => endsAfter afterwards rest
    | .failure _ => false

/-- Whether a reader comes to the end of the stream. -/
def ends (script : Script) : Bool :=
  endsAfter script.afterwards script.events

/-! ## Reading -/

theorem readEvents_delivers {afterwards : Afterwards} {size : Nat} :
    ∀ {events : List ReadEvent} {now time : Nat} {answer : Except IoError Bytes}
      {rest : List ReadEvent}, readEvents afterwards size now events = .ready time answer rest →
      Delivers size (contentOf events) answer (contentOf rest) := by
  intro events
  induction events with
  | nil =>
    intro now time answer rest h
    cases afterwards with
    | closed => cases h; exact ⟨rfl, Nat.zero_le _, fun _ _ => rfl⟩
    | silent => cases h
  | cons event events ih =>
    intro now time answer rest h
    obtain ⟨due, delivery⟩ := event
    cases delivery with
    | endOfStream =>
      cases h
      exact ⟨rfl, Nat.zero_le _, fun _ _ => rfl⟩
    | failure error =>
      cases h
      rfl
    | data bytes =>
      cases bytes with
      | nil => exact ih h
      | cons b bytes =>
        simp only [readEvents] at h
        split at h
        · rename_i hlt
          cases h
          refine ⟨?_, List.length_take_le _ _, fun hnil hpos => ?_⟩
          · simp only [contentOf, ← List.append_assoc, List.take_append_drop]
          · simp only [List.take_eq_nil_iff, List.cons_ne_nil, or_false] at hnil
            omega
        · rename_i hge
          cases h
          exact ⟨rfl, by omega, fun hnil => by cases hnil⟩

/-- **Reads deliver the content in order**: each answer is the next piece of it. -/
theorem read_delivers {script : Script} {size now time : Nat} {answer : Except IoError Bytes}
    {events : List ReadEvent} (h : script.read size now = .ready time answer events) :
    Delivers size script.content answer (contentOf events) := by
  unfold Script.read at h
  split at h
  · rename_i hsize
    cases h
    exact ⟨rfl, Nat.zero_le _, fun _ hpos => absurd hpos (by omega)⟩
  · exact readEvents_delivers h

end Script

end SniffProxy
