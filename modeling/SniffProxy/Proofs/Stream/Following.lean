import SniffProxy.Proofs.Stream.Taking

/-!
# Handshakes that follow a protocol

A protocol fixes which bytes a party sends and takes, and in which order. A session follows it if it
does just that however its reads are cut and however its writes are accepted, and never asks for a
byte that the protocol does not give it next. Such a session takes nothing of what comes behind.

* `Act` — a byte that is sent or taken; `Act.sends`, `Act.takes` — byte strings of them.
* `Session.Follows` — a session follows a list of acts and ends with a value.
* `Handshake.Follows.bind` — two handshakes one after the other follow one list after the other.
* `Handshake.follows_readExact`, `Handshake.follows_writeAll` — the loops over single requests.
-/

namespace SniffProxy

/-! ## Acts -/

/-- A byte on the wire, as one of the parties sees it. -/
inductive Act where
  | send (byte : UInt8)
  | take (byte : UInt8)
  deriving DecidableEq, Repr

namespace Act

/-- Sending a byte string. -/
def sends (bytes : Bytes) : List Act := bytes.map send

/-- Taking a byte string. -/
def takes (bytes : Bytes) : List Act := bytes.map take

@[simp] theorem sends_nil : sends [] = [] := rfl

@[simp] theorem takes_nil : takes [] = [] := rfl

@[simp] theorem sends_append (front back : Bytes) :
    sends (front ++ back) = sends front ++ sends back := List.map_append

@[simp] theorem takes_append (front back : Bytes) :
    takes (front ++ back) = takes front ++ takes back := List.map_append

/-- What one party sends the other one takes. -/
def dual : Act → Act
  | send byte => take byte
  | take byte => send byte

/-- A protocol as the other party sees it. -/
def duals (acts : List Act) : List Act := acts.map dual

@[simp] theorem duals_nil : duals [] = [] := rfl

@[simp] theorem duals_append (front back : List Act) :
    duals (front ++ back) = duals front ++ duals back := List.map_append

@[simp] theorem duals_sends (bytes : Bytes) : duals (sends bytes) = takes bytes := by
  simp [duals, sends, takes, dual]

@[simp] theorem duals_takes (bytes : Bytes) : duals (takes bytes) = sends bytes := by
  simp [duals, sends, takes, dual]

@[simp] theorem duals_duals (acts : List Act) : duals (duals acts) = acts := by
  induction acts with
  | nil => rfl
  | cons act acts ih =>
    show dual (dual act) :: duals (duals acts) = act :: acts
    rw [ih]
    cases act <;> rfl

/-- Bytes that are taken first are at the front of all that are taken. -/
theorem prefix_of_takes {front bytes : Bytes} {acts rest : List Act}
    (h : takes front ++ acts = takes bytes ++ rest) (hlength : front.length ≤ bytes.length) :
    front <+: bytes := by
  have hshort : (takes front).length ≤ (takes bytes).length := by simpa [takes] using hlength
  have hprefix : takes front <+: takes bytes :=
    List.prefix_of_prefix_length_le ⟨_, h⟩ ⟨_, rfl⟩ hshort
  have htake := List.prefix_iff_eq_take.mp hprefix
  rw [takes, takes, List.length_map, ← List.map_take] at htake
  have hfront : front = bytes.take front.length :=
    (List.map_inj_right fun _ _ h => by injection h).mp htake
  exact List.prefix_iff_eq_take.mpr hfront

end Act

open Act (sends takes)

/-! ## Following -/

/-- A session sends and takes just these bytes in this order and ends with this value, whatever
pieces its reads deliver and its writes accept. Every read asks for bytes that it is to take next.
-/
def Session.Follows {α : Type} : Session α → List Act → α → Prop
  | .done value, acts, result => acts = [] ∧ value = result
  | .read size next, acts, result =>
    0 < size ∧ ∃ bytes rest, acts = takes bytes ++ rest ∧ bytes.length = size ∧
      ∀ front back, bytes = front ++ back → front ≠ [] →
        Follows (next (.ok front)) (takes back ++ rest) result
  | .write data next, acts, result =>
    data ≠ [] ∧ ∃ rest, acts = sends data ++ rest ∧
      ∀ front back, data = front ++ back → front ≠ [] →
        Follows (next (.ok front.length)) (sends back ++ rest) result
  | .flush next, acts, result => Follows (next (.ok ())) acts result
  | .report _ next, acts, result => Follows next acts result

namespace Session

variable {α β : Type}

theorem Follows.bind {f : α → Session β} {more : List Act} {a : α} {b : β}
    (hf : (f a).Follows more b) :
    ∀ {s : Session α} {acts : List Act}, s.Follows acts a →
      (s.bind f).Follows (acts ++ more) b := by
  intro s
  induction s with
  | done value =>
    rintro acts ⟨rfl, rfl⟩
    exact hf
  | read size next ih =>
    rintro acts ⟨hsize, bytes, rest, rfl, hlength, hnext⟩
    refine ⟨hsize, bytes, rest ++ more, List.append_assoc _ _ _, hlength, ?_⟩
    intro front back hbytes hfront
    rw [← List.append_assoc]
    exact ih _ (hnext front back hbytes hfront)
  | write data next ih =>
    rintro acts ⟨hdata, rest, rfl, hnext⟩
    refine ⟨hdata, rest ++ more, List.append_assoc _ _ _, ?_⟩
    intro front back hbytes hfront
    rw [← List.append_assoc]
    exact ih _ (hnext front back hbytes hfront)
  | flush next ih =>
    intro acts h
    exact ih _ h
  | report event next ih =>
    intro acts h
    exact ih h

/-! ## Loops over single requests -/

theorem follows_readMore :
    ∀ {fuel : Nat} {bytes collected : Bytes}, bytes.length ≤ fuel →
      (readMore fuel bytes.length collected).Follows (takes bytes) (.ok (collected ++ bytes)) := by
  intro fuel
  induction fuel with
  | zero =>
    intro bytes collected hfuel
    have hnil : bytes = [] := List.eq_nil_of_length_eq_zero (Nat.le_zero.mp hfuel)
    subst hnil
    exact ⟨rfl, by rw [List.append_nil]⟩
  | succ fuel ih =>
    intro bytes collected hfuel
    cases bytes with
    | nil => exact ⟨rfl, by rw [List.append_nil]⟩
    | cons b bytes =>
      refine ⟨Nat.succ_pos _, b :: bytes, [], (List.append_nil _).symm, rfl, ?_⟩
      intro front back hbytes hfront
      have hlength := congrArg List.length hbytes
      have hpos := List.length_pos_iff.mpr hfront
      rw [List.length_append, List.length_cons] at hlength
      rw [List.length_cons] at hfuel
      have hrest : bytes.length + 1 - front.length = back.length := by omega
      have hmore := @ih back (collected ++ front) (by omega)
      rw [hbytes, ← List.append_assoc, List.append_nil]
      cases front with
      | nil => exact absurd rfl hfront
      | cons c front =>
        show (readMore fuel (bytes.length + 1 - (c :: front).length) _).Follows _ _
        rw [hrest]
        exact hmore

theorem follows_writeMore :
    ∀ {fuel : Nat} {data : Bytes}, data.length ≤ fuel →
      (writeMore fuel data).Follows (sends data) (.ok ()) := by
  intro fuel
  induction fuel with
  | zero =>
    intro data hfuel
    have hnil : data = [] := List.eq_nil_of_length_eq_zero (Nat.le_zero.mp hfuel)
    subst hnil
    exact ⟨rfl, rfl⟩
  | succ fuel ih =>
    intro data hfuel
    cases data with
    | nil => exact ⟨rfl, rfl⟩
    | cons b data =>
      refine ⟨List.cons_ne_nil _ _, [], (List.append_nil _).symm, ?_⟩
      intro front back hdata hfront
      have hlength := congrArg List.length hdata
      rw [List.length_append, List.length_cons] at hlength
      rw [List.length_cons] at hfuel
      cases front with
      | nil => exact absurd rfl hfront
      | cons c front =>
        rw [List.length_cons] at hlength
        have hrest : (b :: data).drop (c :: front).length = back := by
          rw [hdata, List.drop_left]
        show (writeMore fuel ((b :: data).drop (c :: front).length)).Follows _ _
        rw [hrest, List.append_nil]
        exact ih (by omega)

end Session

/-! ## Handshakes -/

namespace Handshake

variable {α β : Type}

/-- The handshake sends and takes just these bytes and ends with this value. -/
def Follows (handshake : Handshake α) (acts : List Act) (value : α) : Prop :=
  handshake.session.Follows acts (.ok value)

theorem Follows.bind {x : Handshake α} {f : α → Handshake β} {acts more : List Act} {a : α} {b : β}
    (hx : x.Follows acts a) (hf : (f a).Follows more b) : (x >>= f).Follows (acts ++ more) b := by
  rw [Follows, session_bind]
  refine Session.Follows.bind (a := Except.ok a) ?_ hx
  exact hf

/-- Going on without another act. -/
theorem Follows.bind_nil {x : Handshake α} {f : α → Handshake β} {acts : List Act} {a : α} {b : β}
    (hx : x.Follows acts a) (hf : (f a).Follows [] b) : (x >>= f).Follows acts b := by
  have h := hx.bind hf
  rwa [List.append_nil] at h

/-- Beginning without an act. -/
theorem Follows.nil_bind {x : Handshake α} {f : α → Handshake β} {acts : List Act} {a : α} {b : β}
    (hx : x.Follows [] a) (hf : (f a).Follows acts b) : (x >>= f).Follows acts b :=
  hx.bind hf

/-- Another wording for failures changes nothing. -/
theorem Follows.adapt {x : Handshake α} {acts : List Act} {a : α} (hx : x.Follows acts a)
    (explain : ProxyError → ProxyError) :
    Follows (ExceptT.adapt explain x : Handshake α) acts a := by
  show (x.session.bind _).Follows acts _
  rw [← List.append_nil acts]
  refine Session.Follows.bind (a := Except.ok a) ?_ hx
  exact ⟨rfl, rfl⟩

theorem follows_pure (value : α) : (pure value : Handshake α).Follows [] value := ⟨rfl, rfl⟩

theorem follows_ofExcept (value : α) : (ofExcept (.ok value)).Follows [] value := ⟨rfl, rfl⟩

theorem follows_ofIo {session : Session (Except IoError α)} {acts : List Act} {value : α}
    (h : session.Follows acts (.ok value)) : (ofIo session).Follows acts value := by
  show (session.bind _).Follows acts _
  rw [← List.append_nil acts]
  refine Session.Follows.bind (a := Except.ok value) ?_ h
  exact ⟨rfl, rfl⟩

theorem follows_readExact (count : Nat) (bytes : Bytes) (hlength : bytes.length = count) :
    (readExact count).Follows (takes bytes) bytes := by
  subst hlength
  exact follows_ofIo (Session.follows_readMore (Nat.le_refl _))

theorem follows_readByte (b : UInt8) : readByte.Follows (takes [b]) b := by
  refine follows_ofIo ⟨Nat.one_pos, [b], [], rfl, rfl, ?_⟩
  intro front back hbytes hfront
  cases front with
  | nil => exact absurd rfl hfront
  | cons c front =>
    injection hbytes with hbyte hnil
    obtain ⟨rfl, rfl⟩ := List.append_eq_nil_iff.mp hnil.symm
    exact ⟨rfl, by rw [hbyte]⟩

theorem follows_writeAll (data : Bytes) : (writeAll data).Follows (sends data) () :=
  follows_ofIo (Session.follows_writeMore (Nat.le_refl _))

theorem follows_flush : flush.Follows [] () := follows_ofIo ⟨rfl, rfl⟩

end Handshake

end SniffProxy
