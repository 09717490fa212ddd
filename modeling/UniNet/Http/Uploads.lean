import UniNet.Http.Boundary
import UniNet.Http.Message

/-!
# Uploads of several clients

A POST handler is called with pieces of a body, and with no input once the body is there. It is
told neither for which client nor for which request, and nothing keeps two clients from uploading
to the same handler at a time. What a handler is given is therefore an interleaving of what it is
given for the clients of the single slots.

In a slot an upload is never mixed with another one. It ends with the call without input, or it
is cut off when its client is deleted, of which the handler is not told.

* `mixed_uploads` — the pieces of two bodies between two final calls
* `Work.uploads` — what a call does to the uploads of a slot
* `uploads_grouped` — what a handler is given in a slot, request by request
-/

namespace UniNet.Http

open Infra

variable {N : NetConfig}

/-! ## What a handler is given -/

/-- The input of a call for a POST request. The calls for a GET pass both buffers. -/
def Event.input (f userdata : Nat) : Event → Option (Option Bytes)
  | .call k =>
    if k.function = f ∧ k.userdata = userdata ∧ (k.bufOut = none ∨ k.bufIn = none)
    then some k.bufIn else none
  | _ => none

def postInputs (f userdata : Nat) (log : List Event) : List (Option Bytes) :=
  log.filterMap (Event.input f userdata)

/-- The same for an event of the server, with the slot of the client. -/
def ServerEvent.input (f userdata : Nat) : ServerEvent → Option (Nat × Option Bytes)
  | .slot i e => (e.input f userdata).map (i, ·)
  | .leaked _ => none

/-- What a handler is given in a run of the server. -/
def handlerInputs (f userdata : Nat) (log : List ServerEvent) : List (Nat × Option Bytes) :=
  log.filterMap (ServerEvent.input f userdata)

section

variable (f userdata : Nat)

theorem postInputs_append (l m : List Event) :
    postInputs f userdata (l ++ m) = postInputs f userdata l ++ postInputs f userdata m :=
  List.filterMap_append

/-- The calls are all there is to it. -/
theorem postInputs_calls : ∀ log : List Event, postInputs f userdata log
    = postInputs f userdata (summary log).calls
  | [] => rfl
  | e :: log => by
    have he : postInputs f userdata [e] = postInputs f userdata e.summary.calls := by
      cases e <;> rfl
    rw [summary_cons, Summary.append_def, postInputs_append, ← postInputs_calls log, ← he,
      ← postInputs_append]
    rfl

theorem postInputs_callEvent (h : HttpHandler) {bufOut : Option Nat} {bufIn : Option Bytes}
    (hb : bufOut = none ∨ bufIn = none) :
    postInputs f userdata [callEvent h bufOut bufIn]
      = if h.function = some f ∧ h.userdata = userdata then [bufIn] else [] := by
  unfold callEvent postInputs
  split
  · next g hg =>
    by_cases hk : g = f ∧ h.userdata = userdata
    · simp [Event.input, hb, hg, hk]
    · simp only [List.filterMap_cons, Event.input, hb, and_true, hg, Option.some.injEq, if_neg hk]
      rfl
  · next hg => rw [if_neg (by simp [hg])]; rfl

theorem postInputs_get (h : HttpHandler) (space : Nat) (data : Bytes) :
    postInputs f userdata [callEvent h (some space) (some data)] = [] := by
  unfold callEvent postInputs
  split <;> simp [Event.input]

theorem handlerInputs_slot (i : Nat) : ∀ log : List ServerEvent,
    ((handlerInputs f userdata log).filter (·.1 = i)).map Prod.snd
      = postInputs f userdata (slotLog i log)
  | [] => rfl
  | .leaked _ :: log => handlerInputs_slot i log
  | .slot j e :: log => by
    have ih := handlerInputs_slot i log
    unfold handlerInputs postInputs slotLog at ih ⊢
    by_cases hj : j = i <;> cases he : e.input f userdata <;>
      simp [ServerEvent.input, ServerEvent.inSlot, he, hj, ih]

end

/-! ## The upload of a request -/

/-- What a handler has been given of a body of `length` bytes, and whether it was told the end. -/
structure Upload where
  handler : HttpHandler
  length : Nat
  chunks : List Bytes
  final : Bool
  nonempty : [] ∉ chunks
  whole : final = true → chunks.flatten.length = length

def Upload.inputs (u : Upload) : List (Option Bytes) :=
  u.chunks.map some ++ if u.final then [none] else []

/-- What the function `f` is given of it. -/
def Upload.inputsTo (f userdata : Nat) (u : Upload) : List (Option Bytes) :=
  if u.handler.function = some f ∧ u.handler.userdata = userdata then u.inputs else []

/-- The calls it is made of. -/
def Upload.calls (N : NetConfig) (u : Upload) : List Event :=
  u.chunks.map (chunkEvent u.handler)
    ++ if u.final then [callEvent u.handler (some N.txBuf) none] else []

theorem Upload.postInputs_calls (N : NetConfig) (u : Upload) (f userdata : Nat) :
    postInputs f userdata (u.calls N) = u.inputsTo f userdata := by
  have hchunks : ∀ chunks : List Bytes, postInputs f userdata (chunks.map (chunkEvent u.handler))
      = if u.handler.function = some f ∧ u.handler.userdata = userdata
        then chunks.map some else [] := by
    intro chunks
    induction chunks with
    | nil => rw [List.map_nil, List.map_nil, ite_self]; rfl
    | cons data chunks ih =>
      rw [List.map_cons, ← List.singleton_append, postInputs_append, ih, chunkEvent,
        postInputs_callEvent f userdata u.handler (Or.inl rfl)]
      split <;> rfl
  have hfinal : postInputs f userdata [callEvent u.handler (some N.txBuf) none] = _ :=
    postInputs_callEvent f userdata u.handler (Or.inr rfl)
  rw [calls, postInputs_append, hchunks, inputsTo, inputs]
  cases u.final with
  | false => exact (List.append_nil _).trans (by rw [if_neg Bool.false_ne_true, List.append_nil])
  | true =>
    rw [if_pos rfl, if_pos rfl, hfinal]
    split <;> rfl

/--
`u` is the upload of a single request, served by `evs` after `log`. The request was found in front
of `block ++ behind`, which had been received, and the pieces are the bytes that follow `block` in
the stream.
-/
inductive Serves (ctx : Context) (log : List Event) : List Event → Upload → Prop
  | intro {block behind : Bytes} {req : Request} {rest : List Event} {u : Upload}
      (hlog : block ++ behind <:+ (summary log).received) (hreq : requestOf block = some req)
      (hpost : req.cmdType = .post) (hlen : req.length = some u.length)
      (hh : ctx.findHandler .post req.url = some u.handler)
      (hrest : ∀ e ∈ rest, e.headersLen = none ∧ e ≠ .closesocket)
      (hinputs : ∀ f userdata, postInputs f userdata rest = u.inputsTo f userdata)
      (hbody : u.chunks.flatten = (behind ++ (summary rest).received).take u.length) :
      Serves ctx log (.headers block (block ++ behind).length :: rest) u

/-- The uploads of a slot, of which none is under way. -/
inductive Uploads (ctx : Context) : List Event → List Upload → Prop
  | nil : Uploads ctx [] []
  | other {log evs : List Event} {us : List Upload} (h : Uploads ctx log us)
      (hevs : ∀ f userdata, postInputs f userdata evs = []) : Uploads ctx (log ++ evs) us
  | finished {log evs : List Event} {us : List Upload} {u : Upload} (h : Uploads ctx log us)
      (hu : Serves ctx log evs u) (hfinal : u.final = true) : Uploads ctx (log ++ evs) (us ++ [u])
  | cut {log evs : List Event} {us : List Upload} {u : Upload} {bits : List SelectBit}
      (h : Uploads ctx log us) (hu : Serves ctx log evs u) (hfinal : u.final = false) :
      Uploads ctx (log ++ evs ++ [.fdClr bits, .closesocket]) (us ++ [u])

/-- The uploads of a slot, of which the last one may be under way. -/
def UploadLog (ctx : Context) (log : List Event) (us : List Upload) : Prop :=
  Uploads ctx log us ∨ ∃ done evs us' u, log = done ++ evs ∧ us = us' ++ [u] ∧
    Uploads ctx done us' ∧ Serves ctx done evs u ∧ u.final = false

theorem Serves.postInputs_eq {ctx : Context} {log evs : List Event} {u : Upload}
    (h : Serves ctx log evs u) (f userdata : Nat) :
    postInputs f userdata evs = u.inputsTo f userdata := by
  cases h with
  | intro _ _ _ _ _ _ hinputs _ => exact hinputs f userdata

theorem Uploads.postInputs_eq {ctx : Context} {log : List Event} {us : List Upload}
    (h : Uploads ctx log us) (f userdata : Nat) :
    postInputs f userdata log = us.flatMap (Upload.inputsTo f userdata) := by
  induction h with
  | nil => rfl
  | other _ hevs ih => rw [postInputs_append, ih, hevs, List.append_nil]
  | finished _ hu _ ih =>
    rw [postInputs_append, ih, hu.postInputs_eq, List.flatMap_append, List.flatMap_singleton]
  | cut _ hu _ ih =>
    rw [postInputs_append, postInputs_append, ih, hu.postInputs_eq, List.flatMap_append,
      List.flatMap_singleton]
    exact List.append_nil _

theorem UploadLog.postInputs_eq {ctx : Context} {log : List Event} {us : List Upload}
    (h : UploadLog ctx log us) (f userdata : Nat) :
    postInputs f userdata log = us.flatMap (Upload.inputsTo f userdata) := by
  rcases h with h | ⟨done, evs, us', u, rfl, rfl, h, hu, -⟩
  · exact h.postInputs_eq f userdata
  · rw [postInputs_append, h.postInputs_eq, hu.postInputs_eq, List.flatMap_append,
      List.flatMap_singleton]

theorem Uploads.quiet {ctx : Context} {log evs : List Event} {us : List Upload}
    (h : Uploads ctx log us) (hevs : (summary evs).calls = []) : Uploads ctx (log ++ evs) us :=
  h.other fun f userdata => by
    rw [postInputs_calls, hevs]
    rfl

/-- An upload goes on with some more events. -/
theorem Serves.append {ctx : Context} {log evs new : List Event} {u v : Upload}
    (h : Serves ctx log evs u) (hhandler : v.handler = u.handler) (hlength : v.length = u.length)
    (hnew : ∀ e ∈ new, e.headersLen = none ∧ e ≠ .closesocket)
    (hcalls : v.calls N = u.calls N ++ (summary new).calls)
    (hbody : v.chunks.flatten = u.chunks.flatten ++ (summary new).received)
    (hle : v.chunks.flatten.length ≤ u.length) : Serves ctx log (evs ++ new) v := by
  cases h with
  | @intro block behind req rest _ hlog hreq hpost hlen hh hrest hgiven hpart =>
    rw [List.cons_append]
    refine .intro hlog hreq hpost (hlength ▸ hlen) (hhandler ▸ hh) ?_ (fun f userdata => ?_) ?_
    · rw [List.forall_mem_append]
      exact ⟨hrest, hnew⟩
    · rw [postInputs_append, hgiven, postInputs_calls _ _ new, ← u.postInputs_calls N,
        ← postInputs_append, ← hcalls, v.postInputs_calls]
    · -- when more was received than the body, nothing is left to follow
      rw [hbody, hpart, hlength, summary_append, Summary.append_def]
      show _ = List.take _ (behind ++ (_ ++ _))
      rw [hbody, hpart, List.length_append, List.length_take] at hle
      rw [← List.append_assoc]
      generalize behind ++ (summary rest).received = got at hle ⊢
      have hroom : (summary new).received.length ≤ u.length - got.length := by omega
      rw [List.take_append, List.take_of_length_le hroom]

/-! ## The uploads of a slot -/

/-- A slot with its uploads. -/
inductive SlotUploads (ctx : Context) : Option (Client N) → List Event → Prop
  | empty {log : List Event} {us : List Upload} (h : Uploads ctx log us) :
      SlotUploads ctx none log
  | awaiting {c : Client N} {acc : Bytes} {log : List Event} {us : List Upload}
      (h : Uploads ctx log us) (ha : Awaiting c acc) (hacc : acc <:+ (summary log).received) :
      SlotUploads ctx (some c) log
  | sending {c : Client N} {g : HttpFile} {off : Nat} {log : List Event} {us : List Upload}
      (h : Uploads ctx log us) (hs : Sending c g off) : SlotUploads ctx (some c) log
  | receiving {c : Client N} {log evs : List Event} {us : List Upload} {u : Upload}
      (h : Uploads ctx log us) (hu : Serves ctx log evs u) (hfinal : u.final = false)
      (hv : Receiving ctx c u.handler u.length u.chunks.flatten.length) :
      SlotUploads ctx (some c) (log ++ evs)

section

variable {ctx : Context} {inp : Input} {c : Client N} {log : List Event} {o : Out N}

theorem SlotUploads.inv (h : SlotUploads ctx (some c) log) : ClientInv ctx c := by
  cases h with
  | awaiting _ ha _ => exact Or.inl ⟨_, ha⟩
  | sending _ hs => exact Or.inr (Or.inl ⟨_, _, hs⟩)
  | receiving _ _ _ hv => exact Or.inr (Or.inr ⟨_, _, _, hv⟩)

theorem SlotUploads.uploadLog {s : Option (Client N)} (h : SlotUploads ctx s log) :
    ∃ us, UploadLog ctx log us := by
  cases h with
  | empty h | awaiting h _ _ | sending h _ => exact ⟨_, Or.inl h⟩
  | receiving h hu hfinal _ => exact ⟨_, Or.inr ⟨_, _, _, _, rfl, rfl, h, hu, hfinal⟩⟩

theorem SlotUploads.of_awaiting {acc : Bytes} (h : SlotUploads ctx (some c) log)
    (ha : Awaiting c acc) : ∃ us, Uploads ctx log us ∧ acc <:+ (summary log).received := by
  cases h with
  | awaiting h ha' hacc =>
    rw [ha.unique ha']
    exact ⟨_, h, hacc⟩
  | sending _ hs => exact absurd (ha.command.symm.trans hs.command) (by decide)
  | receiving _ _ _ hv => exact absurd (ha.command.symm.trans hv.command) (by decide)

theorem SlotUploads.of_sending {g : HttpFile} {off : Nat} (h : SlotUploads ctx (some c) log)
    (hs : Sending c g off) : ∃ us, Uploads ctx log us := by
  cases h with
  | awaiting h _ _ | sending h _ => exact ⟨_, h⟩
  | receiving _ _ _ hv => exact absurd (hs.command.symm.trans hv.command) (by decide)

theorem SlotUploads.of_receiving {g : HttpHandler} {n off : Nat}
    (h : SlotUploads ctx (some c) log) (hv : Receiving ctx c g n off) :
    ∃ done evs us u, log = done ++ evs ∧ Uploads ctx done us ∧ Serves ctx done evs u ∧
      u.final = false ∧ g = u.handler ∧ n = u.length ∧ off = u.chunks.flatten.length := by
  cases h with
  | awaiting _ ha _ => exact absurd (ha.command.symm.trans hv.command) (by decide)
  | sending _ hs => exact absurd (hs.command.symm.trans hv.command) (by decide)
  | receiving h hu hfinal hv' => exact ⟨_, _, _, _, rfl, h, hu, hfinal, hv.unique hv'⟩

/-- The upload that a request is served with, as far as it goes at once. -/
theorem Start.serves {req : Request} {tail block : Bytes} {u : Upload}
    (hs : Start ctx inp req tail o) (hlog : block ++ tail <:+ (summary log).received)
    (hreq : requestOf block = some req) (hpost : req.cmdType = .post)
    (hlen : req.length = some u.length) (hh : ctx.findHandler .post req.url = some u.handler)
    (hcalls : (summary o.events).calls = u.calls N)
    (hbody : u.chunks.flatten = tail.take u.length) :
    Serves ctx log
      (.headers block (block ++ tail).length :: .start req.cmdType req.url :: o.events) u := by
  refine .intro hlog hreq hpost hlen hh ?_ (fun f userdata => ?_) ?_
  · rw [List.forall_mem_cons]
    refine ⟨⟨rfl, nofun⟩, fun e he => ?_⟩
    exact ⟨hs.headersLen e he, Event.ne_closesocket (hs.isResponse e he)⟩
  · rw [postInputs_calls, ← u.postInputs_calls N, ← hcalls]
    rfl
  · rw [hbody, summary_cons, Summary.append_def, received_response hs.isResponse]
    exact congrArg _ (List.append_nil _).symm

/-- **A request that has been found starts an upload**, and maybe ends it, or it is none. -/
theorem Start.uploads {req : Request} {tail block : Bytes} {us : List Upload}
    (hs : Start ctx inp req tail o) (h : Uploads ctx log us)
    (hlog : block ++ tail <:+ (summary log).received) (hreq : requestOf block = some req) :
    SlotUploads ctx (some o.client) (log ++
      .headers block (block ++ tail).length :: .start req.cmdType req.url :: o.events) := by
  have hserves := fun {u : Upload} => hs.serves (u := u) hlog hreq
  cases hs with
  | ignored _ _ hc => exact .awaiting (h.quiet rfl) hc (List.nil_suffix ..)
  | @getReply c d g bufIn _ _ _ =>
    refine .awaiting (h.other fun f userdata => ?_) (awaiting_clear d) (List.nil_suffix ..)
    rw [postInputs_calls, summary_cons, summary_cons, summary_append, replyEvents_summary]
    exact postInputs_get f userdata g N.txBuf bufIn
  | @getError d _ _ _ _ | @getNotFound d _ _ _ | @postNotFound d _ _ =>
    exact .awaiting (h.quiet rfl) (awaiting_clear d) (List.nil_suffix ..)
  | @getFile c g _ _ _ hc =>
    have hsel := selected_of_getFile hc
    have hquiet : Uploads ctx (log ++ .headers block (block ++ tail).length
        :: .start req.cmdType req.url :: (cmdGetSendfile inp c g (some req.url)).events) us := by
      refine h.quiet ?_
      rw [summary_cons, summary_cons, sendfile_summary hsel hc.2.2.2.2]
      rfl
    rcases cmdGetSendfile_phase (some req.url) hsel with hcl | ⟨off, hsend⟩
    · exact .awaiting hquiet hcl.awaiting (List.nil_suffix ..)
    · exact .sending hquiet hsend
  | @postBody c g n hpost hlen hh hlt hc =>
    -- the upload is under way, with the piece that came along with the block
    obtain ⟨hflat, hne, hchunks⟩ := pieces_spec g tail
    have hu := hserves (u := ⟨g, n, pieces tail, false, hne, nofun⟩) hpost hlen hh
      (by rw [summary_append, chunkEvents_summary, hchunks]; rfl)
      (hflat.trans (List.take_of_length_le (Nat.le_of_lt hlt)).symm)
    refine .receiving h hu rfl ?_
    show Receiving ctx c g n (pieces tail).flatten.length
    rw [hflat]
    exact hc
  | @postReply c d g n hpost hlen hh hle =>
    obtain ⟨hflat, hne, hchunks⟩ := pieces_spec g (tail.take n)
    have hwhole : (pieces (tail.take n)).flatten.length = n := by
      rw [hflat, List.length_take, Nat.min_eq_left hle]
    have hu := hserves (u := ⟨g, n, pieces (tail.take n), true, hne, fun _ => hwhole⟩) hpost
      hlen hh (by
        rw [summary_append, chunkEvents_summary, hchunks, summary_append, replyEvents_summary]
        rfl) hflat
    exact .awaiting (h.finished hu rfl) (awaiting_clear d) (List.nil_suffix ..)

/-- The buffer holds what was received last. -/
theorem suffix_received {acc : Bytes} (h : acc <:+ (summary log).received) (len : Nat) (r : Recv) :
    acc ++ r.bytes <:+ (summary (log ++ [.recv len r])).received := by
  obtain ⟨before, hbefore⟩ := h
  refine ⟨before, ?_⟩
  rw [summary_append, Summary.append_def, ← hbefore, summary_cons, summary_nil,
    Summary.append_none, ← List.append_assoc]
  rfl

/-- **What a call does to the uploads of a slot.** -/
theorem Work.uploads (hw : Work ctx inp c o) (h : SlotUploads ctx (some c) log) :
    SlotUploads ctx (some o.client) (log ++ o.events) := by
  cases hw with
  | disconnected _ =>
    rw [List.append_nil]
    exact h
  | @idle acc _ ha hr =>
    obtain ⟨us, hus, hacc⟩ := h.of_awaiting ha
    refine .awaiting (hus.quiet rfl) ha ?_
    have hmore := suffix_received hacc (N.rxBuf - acc.length) (inp.recvUpTo (N.rxBuf - acc.length))
    rw [Recv.bytes_of_nonpos hr, List.append_nil] at hmore
    exact hmore
  | @accumulate d acc data _ ha _ _ _ ha' =>
    obtain ⟨us, hus, hacc⟩ := h.of_awaiting ha
    exact .awaiting (hus.quiet rfl) ha' (suffix_received hacc _ (.data data))
  | @overflow d acc data _ ha _ _ _ _ | @rejected d acc data _ _ _ ha _ _ _ _ _ =>
    obtain ⟨us, hus, -⟩ := h.of_awaiting ha
    exact .awaiting (hus.quiet rfl) (awaiting_clear d) (List.nil_suffix ..)
  | @request acc data block rest req o' _ ha _ _ hsplit _ hreq hs =>
    obtain ⟨us, hus, hacc⟩ := h.of_awaiting ha
    -- the receive belongs to what comes before the request
    have hmore := suffix_received hacc (N.rxBuf - acc.length) (.data data)
    rw [show acc ++ (Recv.data data).bytes = block ++ rest from hsplit] at hmore
    have hstart := hs.uploads (hus.quiet rfl) hmore hreq
    rw [← hsplit, List.append_assoc] at hstart
    exact hstart
  | @sendFile g off _ hs =>
    obtain ⟨us, hus⟩ := h.of_sending hs
    have hquiet : Uploads ctx (log ++ (cmdGetSendfile inp c g none).events) us := by
      refine hus.quiet ?_
      rw [sendfile_next_summary hs]
      rfl
    rcases cmdGetSendfile_next_phase inp hs with hcl | ⟨off', hs'⟩
    · exact .awaiting hquiet hcl.awaiting (List.nil_suffix ..)
    · exact .sending hquiet hs'
  | @bodyNone g n off _ hv _ hr =>
    obtain ⟨done, evs, us, u, rfl, hus, hu, hfinal, rfl, rfl, rfl⟩ := h.of_receiving hv
    rw [List.append_assoc]
    refine .receiving hus
      (hu.append (N := N) rfl rfl ?_ (List.append_nil _).symm ?_ hv.le) hfinal hv
    · rw [List.forall_mem_singleton]
      exact ⟨rfl, by simp⟩
    · rw [summary_cons, Event.summary, Recv.bytes_of_nonpos hr]
      exact (List.append_nil _).symm
  | @bodyChunk d g n off data _ hv _ hne hle hv' =>
    obtain ⟨done, evs, us, u, rfl, hus, hu, hfinal, rfl, rfl, rfl⟩ := h.of_receiving hv
    have hnonempty : [] ∉ u.chunks ++ [data] := by
      rw [List.mem_append, List.mem_singleton, not_or]
      exact ⟨u.nonempty, hne.symm⟩
    have hflat : (u.chunks ++ [data]).flatten = u.chunks.flatten ++ data := by
      rw [List.flatten_append, List.flatten_singleton]
    rw [List.append_assoc]
    refine .receiving
      (u := ⟨u.handler, u.length, u.chunks ++ [data], false, hnonempty, by simp⟩) hus
      (hu.append (N := N) rfl rfl ?_ ?_ ?_ ?_) rfl ?_
    · rw [List.forall_mem_cons, List.forall_mem_singleton]
      have hresp := callEvent_isResponse u.handler none (some data)
      exact ⟨⟨rfl, by simp⟩, Event.headersLen_of_isResponse hresp, Event.ne_closesocket hresp⟩
    · rw [bodyChunk_summary]
      simp [Upload.calls, hfinal]
    · rw [bodyChunk_summary]
      exact hflat
    · show (u.chunks ++ [data]).flatten.length ≤ _
      rw [hflat, List.length_append]
      exact hle
    · show Receiving ctx d u.handler u.length (u.chunks ++ [data]).flatten.length
      rw [hflat, List.length_append]
      exact hv'
  | @bodyReply d g n _ hv =>
    obtain ⟨done, evs, us, u, rfl, hus, hu, hfinal, rfl, rfl, hall⟩ := h.of_receiving hv
    rw [List.append_assoc]
    refine .awaiting (hus.finished (u := ⟨u.handler, u.length, u.chunks, true, u.nonempty,
      fun _ => hall.symm⟩) (hu.append (N := N) rfl rfl ?_ ?_ ?_ hall.ge) rfl)
      (awaiting_clear d) (List.nil_suffix ..)
    · rw [List.forall_mem_append, List.forall_mem_singleton]
      refine ⟨fun e he => ?_, rfl, by simp⟩
      have hresp := replyEvents_isResponse _ _ _ _ _ e he
      exact ⟨Event.headersLen_of_isResponse hresp, Event.ne_closesocket hresp⟩
    · rw [summary_append, replyEvents_summary]
      simp [Upload.calls, hfinal, Summary.append_def, Summary.none, Event.summary]
    · rw [summary_append, replyEvents_summary]
      exact (List.append_nil _).symm

theorem SlotUploads.deleted {bits : List SelectBit} (h : SlotUploads ctx (some c) log) :
    SlotUploads ctx (none : Option (Client N)) (log ++ [.fdClr bits, .closesocket]) := by
  cases h with
  | awaiting h _ _ | sending h _ => exact .empty (h.quiet rfl)
  | receiving h hu hfinal _ =>
    -- nobody tells the handler
    exact .empty (h.cut hu hfinal)

theorem slotWork_uploads (inp : Input) {s : Option (Client N)} (h : SlotUploads ctx s log) :
    SlotUploads ctx (slotWork ctx inp s).1 (log ++ (slotWork ctx inp s).2) := by
  cases s with
  | none =>
    rw [slotWork, List.append_nil]
    exact h
  | some c =>
    have hwork := (clientWork_work h.inv inp).uploads h
    by_cases hneg : (clientWork ctx inp c).result < 0
    · rw [slotWork_deleted hneg, ← List.append_assoc]
      exact hwork.deleted
    · rw [slotWork_kept hneg]
      exact hwork

theorem slotAccept_uploads (a : Option Nat) {s : Option (Client N)} (h : SlotUploads ctx s log) :
    SlotUploads ctx (slotAccept a s).1 (log ++ (slotAccept a s).2) := by
  unfold slotAccept
  split
  · cases h with
    | empty h => exact .awaiting (h.quiet rfl) (awaiting_new N _) (List.nil_suffix ..)
  · rw [List.append_nil]
    exact h

theorem slotRun_uploads (N : NetConfig) (ctx : Context) (xs : List SlotInput) :
    SlotUploads ctx (slotRun N ctx xs).1 (slotRun N ctx xs).2 := by
  refine run_inv (slotStep ctx) (P := SlotUploads ctx) (fun x s log h => ?_) (.empty .nil) xs
  rw [slotStep, ← List.append_assoc]
  exact slotWork_uploads x.inp (slotAccept_uploads x.accept h)

end

/-! ## The handlers of a server -/

/-- **The uploads of a slot do not mix.** What a handler is given on behalf of the clients of one
slot is a sequence of uploads, each of them pieces of the body of one request and then, if its
client was not deleted before, the call without input. -/
theorem uploads_grouped (N : NetConfig) (ctx : Context) (ws : List WorkInput)
    (i : Fin ctx.maxClients) :
    ∃ us, UploadLog ctx (slotLog i (server N ctx ws).2) us ∧ ∀ f userdata,
      ((handlerInputs f userdata (server N ctx ws).2).filter (·.1 = i.val)).map Prod.snd
        = us.flatMap (Upload.inputsTo f userdata) := by
  have hi : (i : Nat) < (server N ctx ws).1.length := by
    rw [server_length]
    exact i.isLt
  obtain ⟨xs, -, hlog⟩ := server_slot ws (List.getElem?_eq_getElem hi)
  obtain ⟨us, hus⟩ := (slotRun_uploads N ctx xs).uploadLog
  rw [← hlog] at hus
  refine ⟨us, hus, fun f userdata => ?_⟩
  rw [handlerInputs_slot, hus.postInputs_eq]

/-- Two clients upload to the same handler, which is given all pieces of both bodies before it
is told the end of any. In a single slot, an upload that was cut off runs into the next one. -/
theorem mixed_uploads :
    let h : HttpHandler := ⟨CString.ofBytes (ascii "/u"), .post, some 1, 0⟩
    let server := fun n => server NetConfig.default ⟨⟨true, [h]⟩, ⟨true, []⟩, n⟩
    let post := ascii "POST /u HTTP/1.1\r\nContent-Length: 2\r\n\r\n"
    let accept (socket : Nat) : WorkInput := ⟨some socket, fun _ => Input.idle⟩
    let recv (data data' : Bytes) : WorkInput :=
      ⟨none, fun i => { Input.idle with recv := .data (if i = 0 then data else data') }⟩
    let disconnect : WorkInput := ⟨none, fun _ => { Input.idle with connected := false }⟩
    handlerInputs 1 0 (server 2 [accept 7, accept 8, recv (post ++ ascii "a") (post ++ ascii "x"),
        recv (ascii "b") (ascii "y"), recv [] []]).2 =
      [(0, some (ascii "a")), (1, some (ascii "x")), (0, some (ascii "b")), (1, some (ascii "y")),
        (0, none), (1, none)] ∧
    handlerInputs 1 0 (server 1 [accept 7, recv (post ++ ascii "a") [], disconnect, accept 8,
        recv (post ++ ascii "xy") []]).2 =
      [(0, some (ascii "a")), (0, some (ascii "xy")), (0, none)] :=
  ⟨by decide +kernel, by decide +kernel⟩

end UniNet.Http
