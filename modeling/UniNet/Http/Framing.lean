import UniNet.Http.Header
import UniNet.Http.Work

/-!
# Framing of responses

What a client on the other side sees of a response depends on how much of it the stack takes
over. `Follows t` is the law that is assumed of the stack: `t` bytes are free, a send takes
over what fits, and what it takes over is no longer free, be it header or body.

Under that law two things can go wrong, and the two main results say exactly when they do.

* `reply_framed_iff` — a handler's reply is announced with a length that was computed before
  the header took its share of the space. It is right unless the space ends inside the body.
* `header_complete_iff` — a header that was queued in part, or not at all, does not always
  make `client_work` fail.
-/

namespace UniNet.Http

open Infra

variable {N : NetConfig}

/-! ## The stack -/

/--
`FreeRTOS_send` of `n` bytes on a non-blocking socket with `t` bytes of free space. A send of
nothing is answered with 0 before the space is looked at.
-/
structure SendOutcome (n t : Nat) (result : Int) : Prop where
  of_empty : n = 0 → result = 0
  of_full : 0 < n → t = 0 → result < 0
  of_space : 0 < n → 0 < t → result = min n t

instance (n t : Nat) (result : Int) : Decidable (SendOutcome n t result) :=
  decidable_of_iff
    ((n = 0 → result = 0) ∧ (0 < n → t = 0 → result < 0) ∧ (0 < n → 0 < t → result = min n t))
    ⟨fun ⟨h₁, h₂, h₃⟩ => ⟨h₁, h₂, h₃⟩, fun h => ⟨h.of_empty, h.of_full, h.of_space⟩⟩

/-- What the stack answers when `t` bytes are free. -/
def Event.Allowed (t : Nat) : Event → Prop
  | .txSpace space => space = t
  | .sendHeader _ _ header result => SendOutcome header.length t result
  | .send data result => SendOutcome data.length t result
  | _ => True

/-- The space that is used up. -/
def Event.taken : Event → Nat
  | .sendHeader _ _ _ result => result.toNat
  | .send _ result => result.toNat
  | _ => 0

/-- A log of a stack that has `t` bytes of free space in the beginning. -/
def Follows : Nat → List Event → Prop
  | _, [] => True
  | t, e :: log => e.Allowed t ∧ Follows (t - e.taken) log

instance (t : Nat) : (e : Event) → Decidable (e.Allowed t)
  | .txSpace space => inferInstanceAs (Decidable (space = t))
  | .sendHeader _ _ header result =>
    inferInstanceAs (Decidable (SendOutcome header.length t result))
  | .send data result => inferInstanceAs (Decidable (SendOutcome data.length t result))
  | .recv .. | .headers .. | .start .. | .call _ | .nullCall | .fdSet _ | .fdClr _ | .accept _
  | .closesocket => inferInstanceAs (Decidable True)

instance decidableFollows : (t : Nat) → (log : List Event) → Decidable (Follows t log)
  | _, [] => inferInstanceAs (Decidable True)
  | t, e :: log =>
    have := decidableFollows (t - e.taken) log
    inferInstanceAs (Decidable (e.Allowed t ∧ Follows (t - e.taken) log))

/-- Events that neither send nor look at the space. -/
def Event.isSilent : Event → Bool
  | .txSpace _ | .sendHeader .. | .send .. => false
  | _ => true

theorem Event.allowed_of_isSilent {e : Event} (t : Nat) (h : e.isSilent = true) :
    e.Allowed t ∧ e.taken = 0 := by
  cases e <;> first | exact ⟨trivial, rfl⟩ | cases h

theorem follows_cons {t : Nat} {e : Event} {log : List Event} :
    Follows t (e :: log) ↔ e.Allowed t ∧ Follows (t - e.taken) log := Iff.rfl

theorem follows_silent {t : Nat} {log : List Event} : ∀ {pre : List Event},
    (∀ e ∈ pre, e.isSilent = true) → (Follows t (pre ++ log) ↔ Follows t log)
  | [], _ => Iff.rfl
  | e :: pre, h => by
    obtain ⟨hallowed, htaken⟩ := Event.allowed_of_isSilent t (h e (List.mem_cons_self ..))
    rw [List.cons_append, follows_cons, htaken, Nat.sub_zero,
      follows_silent fun e' he' => h e' (List.mem_cons_of_mem _ he')]
    exact and_iff_right hallowed

theorem Follows.left {m : List Event} : ∀ {l : List Event} {t : Nat},
    Follows t (l ++ m) → Follows t l
  | [], _, _ => trivial
  | _ :: _, _, h => ⟨h.1, Follows.left h.2⟩

theorem queued_silent {log : List Event} (h : ∀ e ∈ log, e.isSilent = true) : queued log = [] := by
  unfold queued
  rw [List.flatMap_eq_nil_iff]
  intro e he
  have := h e he
  cases e <;> first | rfl | cases this

/-! ## The reply of a handler -/

section

variable {inp : Input} {c : Client N} {reply : HandlerReply} {type : Bytes}

/-- The length that is announced for a reply. -/
def announced (inp : Input) (reply : HandlerReply) : Nat :=
  min (u32OfInt (inp.txSpace 0)) (u32OfInt (i32 reply.size))

/-- The header and the body of a reply, and what the call makes of them. -/
theorem sendReply_eq (inp : Input) (c : Client N) (reply : HandlerReply) (type : Bytes) :
    (sendReply inp c reply type).events
        = [.txSpace (inp.txSpace 0),
            .sendHeader .ok (announced inp reply)
              (headerBytes N .ok (some type) (announced inp reply)) (inp.send 0)]
          ++ (if 0 ≤ inp.send 0 ∧ 0 ≤ i32 reply.size then
              [.send ((c.bufTx.write 0 reply.out).slice 0 (announced inp reply)) (inp.send 1)]
            else []) ∧
      (sendReply inp c reply type).result
        = if 0 ≤ inp.send 0 ∧ 0 ≤ i32 reply.size then inp.send 1 else i32 reply.size := by
  unfold sendReply sendHeader announced
  by_cases h : 0 ≤ inp.send 0 ∧ 0 ≤ i32 reply.size
  · simp only [ne_eq, not_true_eq_false, if_false, if_pos h, List.cons_append, List.nil_append,
      and_self]
  · simp only [ne_eq, not_true_eq_false, if_false, if_neg h, List.cons_append, List.nil_append,
      List.append_nil, and_self]

/-- The law for a reply, read off its events. -/
theorem sendReply_follows {t : Nat} (ht : t < 2 ^ 31)
    (hlaw : Follows t (sendReply inp c reply type).events) :
    announced inp reply = min t (u32OfInt (i32 reply.size)) ∧
      SendOutcome (headerBytes N .ok (some type) (announced inp reply)).length t (inp.send 0) ∧
      (0 ≤ inp.send 0 → 0 ≤ i32 reply.size →
        SendOutcome (min (announced inp reply) N.txBuf) (t - (inp.send 0).toNat) (inp.send 1)) := by
  rw [(sendReply_eq inp c reply type).1] at hlaw
  simp only [List.cons_append, List.nil_append, follows_cons, Event.Allowed, Event.taken,
    Nat.sub_zero] at hlaw
  obtain ⟨hspace, hheader, hrest⟩ := hlaw
  refine ⟨?_, hheader, fun h0 hsize => ?_⟩
  · rw [announced, hspace, u32OfInt_natCast (by omega)]
  · simp only [if_pos (And.intro h0 hsize), follows_cons, Event.Allowed, Buf.length_slice] at hrest
    exact hrest.1

/-- What has been queued of the body of a reply. -/
theorem queued_sendReply :
    queued (sendReply inp c reply type).events
      = if 0 ≤ inp.send 0 ∧ 0 ≤ i32 reply.size then
          ((c.bufTx.write 0 reply.out).slice 0 (announced inp reply)).take (inp.send 1).toNat
        else [] := by
  rw [(sendReply_eq inp c reply type).1]
  split
  · simp only [queued, List.cons_append, List.nil_append, List.flatMap_cons, List.flatMap_nil,
      Event.queued, List.append_nil]
  · rfl

/-- **A reply is framed correctly unless the space ends inside its body.** -/
theorem sendReply_framed_iff {t : Nat} (ht : t < 2 ^ 31) (htype : FitsType (some type))
    (hsize : reply.size ≤ N.txBuf) (hlaw : Follows t (sendReply inp c reply type).events) :
    (0 ≤ (sendReply inp c reply type).result →
        announced inp reply = (queued (sendReply inp c reply type).events).length) ↔
      t ≤ (headerBytes N .ok (some type) (announced inp reply)).length ∨
        (headerBytes N .ok (some type) (announced inp reply)).length + reply.size ≤ t := by
  obtain ⟨ha, hheader, hbody⟩ := sendReply_follows ht hlaw
  have htx := N.txBuf_lt
  have hi32 : i32 reply.size = reply.size := i32_of_lt (by omega)
  rw [hi32, u32OfInt_natCast (by omega)] at ha
  obtain ⟨hpos, -⟩ := headerBytes_length N .ok htype
    (show announced inp reply < 2 ^ 32 by omega)
  rw [queued_sendReply, (sendReply_eq inp c reply type).2]
  generalize (headerBytes N .ok (some type) (announced inp reply)).length = H at hheader hpos ⊢
  by_cases ht0 : t = 0
  · -- nothing fits: no header, no body, and the length announced is 0
    subst ht0
    have hneg := hheader.of_full hpos rfl
    rw [if_neg (by omega), if_neg (by omega), List.length_nil]
    omega
  · -- the header goes out as far as it fits, and the body is tried with what is left
    have h0 := hheader.of_space hpos (by omega)
    have hb := hbody (by omega) (by omega)
    rw [if_pos (by omega), if_pos (by omega), List.length_take, Buf.length_slice]
    by_cases hempty : announced inp reply = 0
    · have h1 := hb.of_empty (by omega)
      omega
    · by_cases hroom : t ≤ H
      · have hneg := hb.of_full (by omega) (by omega)
        omega
      · have h1 := hb.of_space (by omega) (by omega)
        omega

/-- **When a cut off or missing header makes a reply fail.** With no space at all it is the
handler's own result that decides, otherwise the body has nowhere to go. -/
theorem sendReply_header_iff {t : Nat} (ht : t < 2 ^ 31) (htype : FitsType (some type))
    (hlaw : Follows t (sendReply inp c reply type).events) :
    (inp.send 0 < (headerBytes N .ok (some type) (announced inp reply)).length →
        (sendReply inp c reply type).result < 0 ∧
          queued (sendReply inp c reply type).events = []) ↔
      (headerBytes N .ok (some type) (announced inp reply)).length ≤ t ∨ i32 reply.size < 0 ∨
        (0 < t ∧ 0 < i32 reply.size) := by
  obtain ⟨ha, hheader, hbody⟩ := sendReply_follows ht hlaw
  have htx := N.txBuf_ge
  have hlt := i32_lt reply.size
  obtain ⟨hpos, hmax⟩ := headerBytes_length N .ok htype
    (show announced inp reply < 2 ^ 32 by omega)
  rw [queued_sendReply, (sendReply_eq inp c reply type).2]
  generalize (headerBytes N .ok (some type) (announced inp reply)).length = H at hheader hpos hmax ⊢
  by_cases hfits : H ≤ t
  · have h0 := hheader.of_space hpos (by omega)
    exact ⟨fun _ => Or.inl hfits, fun _ h => by omega⟩
  · by_cases ht0 : t = 0
    · -- the failure of the header is lost, and the size of the reply is the result
      have h0 := hheader.of_full hpos ht0
      rw [if_neg (by omega), if_neg (by omega)]
      exact ⟨fun h => Or.inr (Or.inl (h (by omega)).1), fun h _ => ⟨by omega, rfl⟩⟩
    · have h0 := hheader.of_space hpos (by omega)
      by_cases hsize : 0 ≤ i32 reply.size
      · rw [u32OfInt_of_nonneg hsize (by omega)] at ha
        have hn : min (announced inp reply) N.txBuf = min t (i32 reply.size).toNat := by omega
        have hb := hbody (by omega) hsize
        rw [hn] at hb
        rw [if_pos (by omega), if_pos (by omega)]
        by_cases hzero : i32 reply.size = 0
        · -- sending nothing succeeds even on a full socket
          have h1 := hb.of_empty (by omega)
          exact ⟨fun h => by have := (h (by omega)).1; omega, fun h => by omega⟩
        · have h1 := hb.of_full (by omega) (by omega)
          refine ⟨fun _ => by omega, fun _ _ => ⟨h1, ?_⟩⟩
          rw [Int.toNat_of_nonpos (by omega), List.take_zero]
      · rw [if_neg (by omega), if_neg (by omega)]
        exact ⟨fun _ => by omega, fun _ _ => ⟨by omega, rfl⟩⟩

end

/-! ## The other answers -/

section

variable {inp : Input} {c : Client N}

/-- An error answer has no body, and its result is that of the header. -/
theorem errorEvent_header_iff {t : Nat} {status : Status}
    (hlaw : Follows t [errorEvent N inp status]) :
    (inp.send 0 < (headerBytes N status none 0).length → inp.send 0 < 0) ↔
      (headerBytes N status none 0).length ≤ t ∨ t = 0 := by
  obtain ⟨hpos, -⟩ := headerBytes_length N status fitsType_none
    (show 0 < 2 ^ 32 by decide)
  have hheader : SendOutcome (headerBytes N status none 0).length t (inp.send 0) := hlaw.1
  generalize (headerBytes N status none 0).length = H at hheader hpos ⊢
  by_cases ht0 : t = 0
  · have h0 := hheader.of_full hpos ht0
    exact ⟨fun _ => Or.inr ht0, fun _ _ => h0⟩
  · have h0 := hheader.of_space hpos (by omega)
    exact ⟨fun h => by omega, fun h hlt => by omega⟩

/-- The header that a file is sent with. -/
theorem sendfileHeader_eq (inp : Input) (f : HttpFile) (url : Option CString)
    (hsent : c.headerSent = false) :
    (sendfileHeader inp c f url).events
        = [.sendHeader .ok f.size (headerBytes N .ok (some (contentType url)) f.size)
            (inp.send 0)] ∧
      (sendfileHeader inp c f url).result = inp.send 0 := by
  unfold sendfileHeader
  rw [if_neg (by simp [hsent])]
  exact ⟨rfl, rfl⟩

/-- With the whole space taken by the header the loop sends nothing. -/
theorem sendfileAfter_full {f : HttpFile} {url : Option CString} (hc : Selected c f) (k : Nat)
    (hspace : inp.txSpace 0 = 0) :
    (sendfileAfter inp c f url (k + 1)).result = (sendfileHeader inp c f url).result := by
  obtain ⟨hs, -, -⟩ := sendfileHeader_serving inp url hc
  rw [sendfileAfter, sendfileLoop]
  rcases sendfileRound_cases inp (s := sendfileEnter inp c f url) hs.le with
    ⟨-, h⟩ | ⟨m, b, hm, hle, -, -⟩
  · rw [h]
    rfl
  · rw [show (sendfileEnter inp c f url).idx = 0 from rfl, hspace] at hle
    have : u32OfInt 0 = 0 := rfl
    omega

/-- The header of a file that was cut off does not make the call fail. -/
theorem cmdGetSendfile_header_iff {t : Nat} {f : HttpFile} {url : Option CString}
    (hc : Selected c f) (hsent : c.headerSent = false)
    (hlaw : Follows t (cmdGetSendfile inp c f url).events) :
    (inp.send 0 < (headerBytes N .ok (some (contentType url)) f.size).length →
        (cmdGetSendfile inp c f url).result < 0 ∧
          queued (cmdGetSendfile inp c f url).events = []) ↔
      (headerBytes N .ok (some (contentType url)) f.size).length ≤ t ∨ t = 0 := by
  obtain ⟨hevents, hresult⟩ := sendfileHeader_eq inp f url hsent
  obtain ⟨hpos, -⟩ := headerBytes_length N .ok (show FitsType (some (contentType url)) from
    contentType_length url) (show f.size < 2 ^ 32 from f.size_lt)
  rw [cmdGetSendfile_eq, hresult] at hlaw ⊢
  rw [sendfileFinish_result]
  by_cases h0 : 0 ≤ inp.send 0
  · -- the loop is entered; behind a header that was cut off it finds no space
    rw [if_pos h0] at hlaw ⊢
    obtain ⟨e, he, -, -⟩ := sendfileFinish_events f (sendfileAfter inp c f url (f.size + 1))
    obtain ⟨rest, hrest⟩ := sendfileAfter_asks inp url hc f.size
    rw [he, hrest, hevents] at hlaw
    simp only [List.cons_append, List.nil_append, follows_cons, Event.Allowed, Event.taken,
      Nat.sub_zero] at hlaw
    obtain ⟨hheader, hspace, -⟩ := hlaw
    generalize (headerBytes N .ok (some (contentType url)) f.size).length = H at hheader hpos ⊢
    by_cases ht0 : t = 0
    · have := hheader.of_full hpos ht0
      omega
    · have hsend := hheader.of_space hpos (by omega)
      by_cases hfits : H ≤ t
      · exact ⟨fun _ => Or.inl hfits, fun _ h => by omega⟩
      · rw [sendfileAfter_full hc f.size (by omega), hresult]
        exact ⟨fun h => by have := (h (by omega)).1; omega, fun h => by omega⟩
  · rw [if_neg h0] at hlaw ⊢
    obtain ⟨e, he, -, hnone⟩ := sendfileFinish_events f (sendfileEnter inp c f url)
    have henter : (sendfileEnter inp c f url).events = _ := hevents
    rw [he, henter, List.cons_append, List.nil_append] at hlaw ⊢
    have hheader : SendOutcome (headerBytes N .ok (some (contentType url)) f.size).length t
      (inp.send 0) := hlaw.1
    have hq : queued [.sendHeader .ok f.size (headerBytes N .ok (some (contentType url)) f.size)
        (inp.send 0), e] = [] := by
      rw [queued, List.flatMap_cons, List.flatMap_cons, hnone]
      rfl
    have ht0 : t = 0 := by
      by_contra ht0
      have := hheader.of_space hpos (by omega)
      omega
    refine ⟨fun _ => Or.inr ht0, fun _ _ => ⟨?_, hq⟩⟩
    show (sendfileHeader inp c f url).result < 0
    omega

end

/-! ## Answers in a call of `client_work` -/

/-- An answer other than 400: the result of the call, and its events from the answer on. -/
inductive Answer (N : NetConfig) (inp : Input) : Int → List Event → Prop
  | reply {d : Client N} {k : HandlerCall} {type : Bytes} {bits : List SelectBit}
      (hk : k.bufOut.isSome = true) (htype : FitsType (some type)) :
      Answer N inp (sendReply inp d (inp.handler k) type).result
        (.call k :: ((sendReply inp d (inp.handler k) type).events ++ [.fdClr bits]))
  | null {result : Int} {d : Client N} {reply : HandlerReply} {type : Bytes}
      {bits : List SelectBit} (htype : FitsType (some type)) :
      Answer N inp result (.nullCall :: ((sendReply inp d reply type).events ++ [.fdClr bits]))
  | error {status : Status} {post : List Event} (hpost : ∀ e ∈ post, ∃ bits, e = .fdClr bits) :
      Answer N inp (inp.send 0) (errorEvent N inp status :: post)
  | file {d : Client N} {f : HttpFile} {url : CString} (hsel : Selected d f)
      (hsent : d.headerSent = false) :
      Answer N inp (cmdGetSendfile inp d f (some url)).result
        (cmdGetSendfile inp d f (some url)).events

/-- The reply of a handler is an answer, also behind a null pointer. -/
theorem answer_reply (inp : Input) (d : Client N) (h : HttpHandler) (bufIn : Option Bytes)
    {type : Bytes} (bits : List SelectBit) (htype : FitsType (some type)) :
    Answer N inp (replyResult inp d h bufIn type)
      (replyEvents inp d h bufIn type ++ [.fdClr bits]) := by
  unfold replyResult replyEvents callEvent callReply
  cases h.function with
  | some f => exact .reply rfl htype
  | none => exact .null htype

/-- What can come in front of an answer. -/
def Event.isPrelude : Event → Bool
  | .recv .. | .headers .. | .start .. | .nullCall => true
  | .call k => k.bufOut.isNone
  | _ => false

theorem chunkEvents_isPrelude (h : HttpHandler) (data : Bytes) :
    ∀ e ∈ chunkEvents h data, e.isPrelude = true :=
  forall_mem_chunkEvents (·.isPrelude = true) rfl fun _ => rfl

def Event.isHeader : Event → Bool
  | .sendHeader .. => true
  | _ => false

theorem Event.isHeader_of_isPrelude {e : Event} (h : e.isPrelude = true) : e.isHeader = false := by
  cases e <;> first | rfl | cases h

theorem Event.isHeader_of_isTransfer {e : Event} (h : e.isTransfer = true) :
    e.isHeader = false := by
  cases e <;> first | rfl | cases h

theorem Event.isSilent_of_isPrelude {e : Event} (h : e.isPrelude = true) : e.isSilent = true := by
  cases e <;> first | rfl | cases h

/-- The call that asks a handler for its reply; the others hand over a piece of a body. -/
def Event.asked : Event → Option HandlerCall
  | .call k => if k.bufOut.isSome then some k else none
  | _ => none

/-- The calls of a log that ask for a reply. -/
def asked (log : List Event) : List HandlerCall := log.filterMap Event.asked

theorem asked_append (l m : List Event) : asked (l ++ m) = asked l ++ asked m :=
  List.filterMap_append

theorem asked_eq_nil {log : List Event} (h : ∀ e ∈ log, e.asked = none) : asked log = [] :=
  List.filterMap_eq_nil_iff.mpr h

theorem Event.asked_of_isPrelude {e : Event} (h : e.isPrelude = true) : e.asked = none := by
  cases e with
  | call k =>
    have hk : k.bufOut.isNone = true := h
    rw [Event.asked, Option.isNone_iff_eq_none.mp hk]
    rfl
  | _ => rfl

theorem Event.asked_of_isTransfer {e : Event} (h : e.isTransfer = true) : e.asked = none := by
  cases e <;> first | rfl | cases h

section

variable {ctx : Context} {inp : Input} {c : Client N} {o : Out N}

/-- Starting a request answers it, or sends nothing for now. -/
theorem Start.answer {req : Request} {rest : Bytes} (h : Start ctx inp req rest o) :
    (asked o.events = [] ∧ ∀ e ∈ o.events, e.isHeader = false) ∨
      ∃ pre evs, o.events = pre ++ evs ∧ (∀ e ∈ pre, e.isPrelude = true) ∧
        Answer N inp o.result evs := by
  cases h with
  | ignored _ _ _ => exact Or.inl ⟨rfl, List.forall_mem_nil _⟩
  | getReply _ _ _ =>
    exact Or.inr ⟨[], _, rfl, List.forall_mem_nil _,
      answer_reply _ _ _ _ _ (contentType_length (some req.url))⟩
  | getError _ _ _ =>
    refine Or.inr ⟨[], _, rfl, List.forall_mem_nil _, .error ?_⟩
    rw [List.forall_mem_singleton]
    exact ⟨_, rfl⟩
  | getFile _ _ _ hc =>
    exact Or.inr ⟨[], _, rfl, List.forall_mem_nil _,
      .file (selected_of_getFile hc) hc.2.2.2.2⟩
  | getNotFound _ _ _ =>
    exact Or.inr ⟨[], _, rfl, List.forall_mem_nil _,
      .error (List.forall_mem_nil _)⟩
  | postNotFound _ _ =>
    exact Or.inr ⟨[], _, rfl, List.forall_mem_nil _,
      .error (List.forall_mem_nil _)⟩
  | postBody _ _ _ _ _ =>
    have hpre := chunkEvents_isPrelude
    refine Or.inl ⟨?_, ?_⟩
    · rw [asked_append, asked_eq_nil fun e he => Event.asked_of_isPrelude (hpre _ _ e he)]
      rfl
    · rw [List.forall_mem_append, List.forall_mem_singleton]
      exact ⟨fun e he => Event.isHeader_of_isPrelude (hpre _ _ e he), rfl⟩
  | postReply _ _ _ _ =>
    exact Or.inr ⟨_, _, rfl, chunkEvents_isPrelude _ _, answer_reply _ _ _ _ _ fitsType_textPlain⟩

/-- **Headers other than 400 belong to an answer**, and nothing was sent in front of it. -/
theorem Work.answer (h : Work ctx inp c o) :
    (asked o.events = [] ∧
        ∀ e ∈ o.events, e.isHeader = true → e = errorEvent N inp .badrequest) ∨
      ∃ pre evs, o.events = pre ++ evs ∧ (∀ e ∈ pre, e.isPrelude = true) ∧
        Answer N inp o.result evs := by
  cases h with
  | disconnected _ => exact Or.inl ⟨rfl, List.forall_mem_nil _⟩
  | idle _ _ _ | accumulate _ _ _ _ _ _ | bodyNone _ _ _ _ =>
    refine Or.inl ⟨rfl, ?_⟩
    rw [List.forall_mem_singleton]
    intro hno
    cases hno
  | overflow _ _ _ _ _ _ | rejected _ _ _ _ _ _ _ =>
    refine Or.inl ⟨rfl, ?_⟩
    simp [Event.isHeader]
  | request _ _ _ _ _ _ _ hstart =>
    -- the receive, the block and the start are in front of what the request is answered with
    rcases hstart.answer with ⟨hnone, hno⟩ | ⟨pre, evs, hevents, hpre, hans⟩
    · refine Or.inl ⟨hnone, fun e he hheader => ?_⟩
      simp only [List.mem_cons] at he
      rcases he with rfl | rfl | rfl | he
      · cases hheader
      · cases hheader
      · cases hheader
      · rw [hno e he] at hheader
        cases hheader
    · refine Or.inr ⟨_ :: _ :: _ :: pre, evs, by rw [hevents]; rfl, ?_, hans⟩
      simp only [List.forall_mem_cons]
      exact ⟨rfl, rfl, rfl, hpre⟩
  | sendFile _ hsend =>
    obtain ⟨tail, htail, hall⟩ := cmdGetSendfile_events inp none hsend.serving.selected
    rw [sendfileHeader, if_pos hsend.header, List.nil_append] at htail
    rw [htail]
    refine Or.inl ⟨asked_eq_nil fun e he => Event.asked_of_isTransfer (hall e he), ?_⟩
    intro e he hheader
    rw [Event.isHeader_of_isTransfer (hall e he)] at hheader
    cases hheader
  | bodyChunk _ _ _ _ _ _ =>
    rw [chunkEvent, callEvent]
    refine Or.inl ?_
    split
    · exact ⟨rfl, by simp [Event.isHeader]⟩
    · exact ⟨rfl, by simp [Event.isHeader]⟩
  | bodyReply _ _ =>
    exact Or.inr ⟨[], _, rfl, List.forall_mem_nil _, answer_reply _ _ _ _ _ fitsType_textPlain⟩

end

section

variable {ctx : Context} {inp : Input} {c : Client N}

theorem asked_sendReply (d : Client N) (reply : HandlerReply) (type : Bytes) :
    asked (sendReply inp d reply type).events = [] := by
  rw [(sendReply_eq inp d reply type).1]
  split <;> rfl

theorem mem_sendReply {d : Client N} {reply : HandlerReply} {type : Bytes} {status : Status}
    {len : Nat} {header : Bytes} {r : Int} :
    .sendHeader status len header r ∈ (sendReply inp d reply type).events ↔
      status = .ok ∧ len = announced inp reply ∧
        header = headerBytes N .ok (some type) (announced inp reply) ∧ r = inp.send 0 := by
  rw [(sendReply_eq inp d reply type).1]
  split <;> simp

theorem asked_reply {d : Client N} {k : HandlerCall} {reply : HandlerReply} {type : Bytes}
    {bits : List SelectBit} (hk : k.bufOut.isSome = true) :
    asked (.call k :: ((sendReply inp d reply type).events ++ [.fdClr bits])) = [k] := by
  rw [← List.singleton_append, asked_append, asked_append, asked_sendReply]
  simp [asked, Event.asked, hk]

theorem asked_file {d : Client N} {f : HttpFile} {url : CString} (hsel : Selected d f)
    (hsent : d.headerSent = false) : asked (cmdGetSendfile inp d f (some url)).events = [] := by
  obtain ⟨tail, htail, hall⟩ := cmdGetSendfile_events inp (some url) hsel
  rw [htail, (sendfileHeader_eq inp f (some url) hsent).1, asked_append,
    asked_eq_nil fun e he => Event.asked_of_isTransfer (hall e he)]
  rfl

theorem asked_error {status : Status} {post : List Event}
    (hpost : ∀ e ∈ post, ∃ bits, e = .fdClr bits) :
    asked (errorEvent N inp status :: post) = [] := by
  refine asked_eq_nil ?_
  rw [List.forall_mem_cons]
  refine ⟨rfl, fun e he => ?_⟩
  obtain ⟨_, rfl⟩ := hpost e he
  rfl

theorem queued_error {status : Status} {post : List Event}
    (hpost : ∀ e ∈ post, ∃ bits, e = .fdClr bits) :
    queued (errorEvent N inp status :: post) = [] := by
  rw [queued, List.flatMap_eq_nil_iff, List.forall_mem_cons]
  refine ⟨rfl, fun e he => ?_⟩
  obtain ⟨_, rfl⟩ := hpost e he
  rfl

theorem mem_errorEvent {status status' : Status} {post : List Event} {len : Nat} {header : Bytes}
    {r : Int} (hpost : ∀ e ∈ post, ∃ bits, e = .fdClr bits)
    (h : .sendHeader status len header r ∈ errorEvent N inp status' :: post) :
    header = headerBytes N status' none 0 ∧ r = inp.send 0 := by
  rcases List.mem_cons.mp h with h | h
  · simp only [errorEvent, Event.sendHeader.injEq] at h
    exact h.2.2
  · obtain ⟨_, h⟩ := hpost _ h
    cases h

theorem follows_error {t : Nat} {status : Status} {post : List Event}
    (h : Follows t (errorEvent N inp status :: post)) : Follows t [errorEvent N inp status] :=
  ⟨h.1, trivial⟩

/-- The answer in which a handler was asked. -/
theorem Answer.of_asked {result : Int} {evs : List Event} {k : HandlerCall}
    (h : Answer N inp result evs) (hk : k ∈ asked evs) :
    ∃ (d : Client N) (type : Bytes) (bits : List SelectBit), FitsType (some type) ∧
      result = (sendReply inp d (inp.handler k) type).result ∧
      evs = .call k :: ((sendReply inp d (inp.handler k) type).events ++ [.fdClr bits]) := by
  cases h with
  | @reply d k' type bits hk' htype =>
    rw [asked_reply hk', List.mem_singleton] at hk
    subst hk
    exact ⟨d, type, bits, htype, rfl, rfl⟩
  | null =>
    rw [← List.singleton_append, asked_append, asked_append, asked_sendReply] at hk
    cases hk
  | error hpost =>
    rw [asked_error hpost] at hk
    cases hk
  | file hsel hsent =>
    rw [asked_file hsel hsent] at hk
    cases hk

/-- A call, its reply and the end of the answer: only the reply matters for the space. -/
theorem follows_reply {t : Nat} {pre evs : List Event} {k : HandlerCall} {bits : List SelectBit}
    (hpre : ∀ e ∈ pre, e.isPrelude = true)
    (hlaw : Follows t (pre ++ .call k :: (evs ++ [.fdClr bits]))) : Follows t evs := by
  have hrest := (follows_silent fun e he => Event.isSilent_of_isPrelude (hpre e he)).mp hlaw
  have hbehind : Follows t ([.call k] ++ (evs ++ [.fdClr bits])) := hrest
  exact ((follows_silent (by simp [Event.isSilent])).mp hbehind).left

theorem queued_prelude {pre : List Event} (hpre : ∀ e ∈ pre, e.isPrelude = true)
    (log : List Event) :
    queued (pre ++ log) = queued log := by
  rw [queued_append, queued_silent fun e he => Event.isSilent_of_isPrelude (hpre e he),
    List.nil_append]

theorem queued_reply (evs : List Event) (k : HandlerCall) (bits : List SelectBit) :
    queued (.call k :: (evs ++ [.fdClr bits])) = queued evs := by
  rw [← List.singleton_append, queued_append, queued_append]
  exact List.append_nil _

/--
**The length of a handler's reply, announced and queued.**

A call that asks a handler for a reply of at most the size of the buffer, with `t` bytes of
free space, sends one header, with the smaller of the two as the length. If the client is kept
then that is the number of body bytes queued behind it, exactly when the header takes all the
space or leaves enough of it for the whole body.
-/
theorem reply_framed_iff (ctx : Context) (c : Client N) (hc : ClientInv ctx c) (inp : Input)
    (k : HandlerCall) (t : Nat) (ht : t < 2 ^ 31)
    (hk : k ∈ asked (clientWork ctx inp c).events)
    (hsize : (inp.handler k).size ≤ N.txBuf) (hlaw : Follows t (clientWork ctx inp c).events) :
    ∃ type len header r, header = headerBytes N .ok (some type) (min t (inp.handler k).size) ∧
      (∀ e, (e ∈ (clientWork ctx inp c).events ∧ e.isHeader = true) ↔
        e = .sendHeader .ok len header r) ∧
      ((0 ≤ (clientWork ctx inp c).result →
          len = (queued (clientWork ctx inp c).events).length) ↔
        t ≤ header.length ∨ header.length + (inp.handler k).size ≤ t) := by
  rcases (clientWork_work hc inp).answer with ⟨hnone, -⟩ | ⟨pre, evs, hevents, hpre, hans⟩
  · rw [hnone] at hk
    cases hk
  · rw [hevents] at hk hlaw ⊢
    rw [asked_append, asked_eq_nil fun e he => Event.asked_of_isPrelude (hpre e he),
      List.nil_append] at hk
    -- only a reply asks a handler, so the answer is one
    obtain ⟨d, type, bits, htype, hresult, rfl⟩ := hans.of_asked hk
    have hreply := follows_reply hpre hlaw
    have hlen := (sendReply_follows ht hreply).1
    have htx := N.txBuf_lt
    rw [i32_of_lt (by omega), u32OfInt_natCast (by omega)] at hlen
    rw [hresult, queued_prelude hpre, queued_reply]
    refine ⟨type, announced inp (inp.handler k), _, inp.send 0, by rw [hlen], fun e => ⟨?_, ?_⟩,
      sendReply_framed_iff ht htype hsize hreply⟩
    · rintro ⟨he, hheader⟩
      simp only [List.mem_append, List.mem_cons, List.not_mem_nil, or_false] at he
      rcases he with he | rfl | he | rfl
      · rw [Event.isHeader_of_isPrelude (hpre e he)] at hheader
        cases hheader
      · cases hheader
      · cases e <;> cases hheader
        obtain ⟨hstatus, hlen, hhdr, hr⟩ := mem_sendReply.mp he
        rw [hstatus, hlen, hhdr, hr]
      · cases hheader
    · rintro rfl
      refine ⟨?_, rfl⟩
      simp only [List.mem_append, List.mem_cons]
      exact Or.inr (Or.inr (Or.inl (mem_sendReply.mpr ⟨rfl, rfl, rfl, rfl⟩)))

/-- A reply of 200 bytes with plenty of space is framed correctly. -/
theorem reply_framed_iff_enough_space :
    let url := CString.ofBytes (ascii "/a")
    let ctx : Context := ⟨⟨true, [⟨url, .post, some 1, 0⟩]⟩, ⟨true, []⟩, 1⟩
    let inp := { Input.idle with
      recv := .data (ascii "POST /a HTTP/1.1\r\nContent-Length: 0\r\n\r\n")
      txSpace := fun _ => 9000
      send := fun k => if k = 0 then 183 else 200
      handler := fun _ => ⟨200, List.replicate 200 65⟩ }
    let o := clientWork ctx inp (Client.new NetConfig.default 7)
    ∃ len header r, .sendHeader .ok len header r ∈ o.events ∧
      ((0 ≤ o.result → len = (queued o.events).length) ↔
        9000 ≤ header.length ∨ header.length + 200 ≤ 9000) := by
  intro url ctx inp o
  obtain ⟨-, len, header, r, -, hone, hiff⟩ := reply_framed_iff ctx (Client.new NetConfig.default 7)
    (Or.inl ⟨[], awaiting_new NetConfig.default 7⟩) inp
    ⟨1, 0, some NetConfig.default.txBuf, none⟩ 9000 (by decide) (by decide +kernel)
    (by decide +kernel) (by decide +kernel)
  exact ⟨len, header, r, ((hone _).mpr rfl).1, hiff⟩

/-- With 300 bytes of space 200 are announced and 118 queued, and the client is kept. -/
theorem reply_cut_off :
    let url := CString.ofBytes (ascii "/a")
    let ctx : Context := ⟨⟨true, [⟨url, .get, some 1, 0⟩]⟩, ⟨true, []⟩, 1⟩
    let inp := { Input.idle with
      recv := .data (ascii "GET /a HTTP/1.1\r\n\r\n")
      txSpace := fun _ => 300
      send := fun k => if k = 0 then 182 else 118
      handler := fun _ => ⟨200, List.replicate 200 65⟩ }
    let s := server NetConfig.default ctx [⟨some 7, fun _ => Input.idle⟩, ⟨none, fun _ => inp⟩]
    Follows 300 (slotLog 0 s.2) ∧ s.1.map Option.isSome = [true] ∧
      (∃ header, .sendHeader .ok 200 header 182 ∈ slotLog 0 s.2) ∧
      (queued (slotLog 0 s.2)).length = 118 :=
  ⟨by decide +kernel, by decide +kernel,
    ⟨headerBytes NetConfig.default .ok (some (ascii "text/html")) 200, by decide +kernel⟩,
    by decide +kernel⟩

/-- The header in the events of a file is the one in front. -/
theorem mem_cmdGetSendfile {d : Client N} {f : HttpFile} {url : CString} (hsel : Selected d f)
    (hsent : d.headerSent = false) {status : Status} {len : Nat} {header : Bytes} {r : Int}
    (h : .sendHeader status len header r ∈ (cmdGetSendfile inp d f (some url)).events) :
    header = headerBytes N .ok (some (contentType (some url))) f.size ∧ r = inp.send 0 := by
  obtain ⟨tail, htail, hall⟩ := cmdGetSendfile_events inp (some url) hsel
  rw [htail, (sendfileHeader_eq inp f (some url) hsent).1, List.singleton_append,
    List.mem_cons] at h
  rcases h with h | h
  · simp only [Event.sendHeader.injEq] at h
    exact h.2.2
  · cases hall _ h

/--
**A header is queued completely or the client is deleted: exactly when.**

`t` bytes are free when a call sends a header other than 400. If fewer bytes of the header
are queued than it has, then the call fails and nothing is queued behind it, exactly when the
header fits, or else

* no handler was asked (a file, 404 or 500) and there was no space at all,
* or the handler's result is negative, or there was some space and the reply is not empty.
-/
theorem header_complete_iff (ctx : Context) (c : Client N) (hc : ClientInv ctx c) (inp : Input)
    (t : Nat) (ht : t < 2 ^ 31) (status : Status) (len : Nat) (header : Bytes) (r : Int)
    (hh : .sendHeader status len header r ∈ (clientWork ctx inp c).events)
    (hs : status ≠ .badrequest) (hnull : .nullCall ∉ (clientWork ctx inp c).events)
    (hlaw : Follows t (clientWork ctx inp c).events) :
    (r < header.length →
        (clientWork ctx inp c).result < 0 ∧ queued (clientWork ctx inp c).events = []) ↔
      header.length ≤ t ∨
        match asked (clientWork ctx inp c).events with
        | [] => t = 0
        | k :: _ => i32 (inp.handler k).size < 0 ∨ (0 < t ∧ 0 < i32 (inp.handler k).size) := by
  rcases (clientWork_work hc inp).answer with ⟨-, hbad⟩ | ⟨pre, evs, hevents, hpre, hans⟩
  · have hevent := hbad _ hh rfl
    simp only [errorEvent, Event.sendHeader.injEq] at hevent
    exact absurd hevent.1 hs
  · rw [hevents] at hh hnull hlaw ⊢
    have hmem : .sendHeader status len header r ∈ evs := by
      rcases List.mem_append.mp hh with h | h
      · cases hpre _ h
      · exact h
    rw [queued_prelude hpre, asked_append,
      asked_eq_nil fun e he => Event.asked_of_isPrelude (hpre e he), List.nil_append]
    have hlaw' := (follows_silent fun e he => Event.isSilent_of_isPrelude (hpre e he)).mp hlaw
    generalize (clientWork ctx inp c).result = result at hans ⊢
    -- one lemma for each kind of answer
    cases hans with
    | @reply d k type bits hk htype =>
      rw [asked_reply hk, queued_reply]
      simp only [List.mem_cons, List.mem_append, List.not_mem_nil, or_false, reduceCtorEq,
        false_or] at hmem
      obtain ⟨-, -, hheader, hr⟩ := mem_sendReply.mp hmem
      rw [hheader, hr]
      exact sendReply_header_iff ht htype (follows_reply hpre hlaw)
    | null => exact absurd (List.mem_append_right _ (List.mem_cons_self ..)) hnull
    | @error status' post hpost =>
      obtain ⟨hheader, hr⟩ := mem_errorEvent hpost hmem
      rw [asked_error hpost, queued_error hpost, hheader, hr,
        ← errorEvent_header_iff (follows_error hlaw')]
      simp only [and_true]
    | @file d f url hsel hsent =>
      rw [asked_file hsel hsent]
      obtain ⟨hheader, hr⟩ := mem_cmdGetSendfile hsel hsent hmem
      rw [hheader, hr]
      exact cmdGetSendfile_header_iff hsel hsent hlaw'

end

/-- A 404 without any space makes the call fail. -/
theorem header_complete_iff_no_space :
    let ctx : Context := ⟨⟨true, []⟩, ⟨true, []⟩, 1⟩
    let inp := { Input.idle with
      recv := .data (ascii "GET /a HTTP/1.1\r\n\r\n")
      send := fun _ => -1 }
    let o := clientWork ctx inp (Client.new NetConfig.default 7)
    o.result < 0 ∧ queued o.events = [] :=
  (header_complete_iff ⟨⟨true, []⟩, ⟨true, []⟩, 1⟩ (Client.new NetConfig.default 7)
    (Or.inl ⟨[], awaiting_new NetConfig.default 7⟩) _ 0 (by decide) .notfound 0
    (headerBytes NetConfig.default .notfound none 0) (-1) (by decide +kernel) (by decide)
    (by decide +kernel) (by decide +kernel)).mpr (Or.inr rfl) (by decide +kernel)

/-- With 100 bytes of space a 404 is cut off, and the client is kept all the same. -/
theorem header_cut_off :
    let ctx : Context := ⟨⟨true, []⟩, ⟨true, []⟩, 1⟩
    let inp := { Input.idle with
      recv := .data (ascii "GET /a HTTP/1.1\r\n\r\n")
      send := fun _ => 100 }
    let s := server NetConfig.default ctx [⟨some 7, fun _ => Input.idle⟩, ⟨none, fun _ => inp⟩]
    Follows 100 (slotLog 0 s.2) ∧ s.1.map Option.isSome = [true] ∧
      ∃ header, .sendHeader .notfound 0 header 100 ∈ slotLog 0 s.2 ∧ 100 < header.length :=
  ⟨by decide +kernel, by decide +kernel, headerBytes NetConfig.default .notfound none 0,
    by decide +kernel, by decide +kernel⟩

end UniNet.Http
