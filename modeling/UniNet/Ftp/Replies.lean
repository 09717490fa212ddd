import UniNet.Ftp.Chain

/-!
# Replies and segments

The control connection is a stream of lines, and the stack hands it over in parts of its own
choice. `work_cmd` cuts every part into lines by itself and keeps nothing for the next one, so
what it passes on are the lines of the stream exactly when the parts are cut at line ends.

* `Act.heard` — lines come from the received parts, one after the other
* `replies_understood_iff` — the lines that are passed on are those of the stream
-/

namespace UniNet.Ftp

open Infra Relation

/-! ## Parts and lines -/

/-- What an act adds to the lines and the parts. -/
theorem Act.heard {s s' : Session} (h : Act s s') :
    (passed s'.log = passed s.log ∧ parts s'.log = parts s.log) ∨
      (∃ text, passed s.log ++ [text] <+: offered s.log ∧
        (∀ text ∈ passed s.log, (Event.line text).ends = none) ∧
        passed s'.log = passed s.log ++ [text] ∧ parts s'.log = parts s.log) ∨
      (∃ bytes, passed s.log = offered s.log ∧ passed s'.log = passed s.log ∧
        parts s'.log = parts s.log ++ [bytes]) := by
  have hquiet : ∀ {s''}, TaskOnly s s'' →
      passed s''.log = passed s.log ∧ parts s''.log = parts s.log :=
    fun h => ⟨h.passed_eq, h.parts_eq⟩
  have hidle : ∀ {s''}, TaskOnly s s'' →
      passed (setToIdle s'').log = passed s.log ∧ parts (setToIdle s'').log = parts s.log := by
    intro s'' h
    have hclose := quiet_closeData s''
    simp [setToIdle_log, hclose.passed_eq, hclose.parts_eq, h.passed_eq, h.parts_eq]
  cases h with
  | @note _ e hn =>
    cases e with
    | recv sock bytes => exact Or.inr (Or.inr ⟨bytes, hn.2.2.all, by simp, by simp⟩)
    | line text => exact hn.elim
    | _ => exact Or.inl (by simp)
  | api _ call => exact Or.inl (hquiet (taskOnly_apiCalls none s [call]))
  | createSet inp =>
    have h := quiet_createSet inp s
    exact Or.inl ⟨h.passed_eq, h.parts_eq⟩
  | closeData =>
    have h := quiet_closeData s
    exact Or.inl ⟨h.passed_eq, h.parts_eq⟩
  | closeCmd _ hdata =>
    have h := quiet_closeCmd hdata
    exact Or.inl ⟨h.passed_eq, h.parts_eq⟩
  | deleteSet _ hcmd hdata =>
    have h := quiet_deleteSet hcmd hdata
    exact Or.inl ⟨h.passed_eq, h.parts_eq⟩
  | notify inp _ _ => exact Or.inl (hquiet (taskOnly_callback inp s _))
  | reply _ hnext hlive => exact Or.inr (Or.inl ⟨_, hnext, hlive, by simp, by simp⟩)
  | slice inp _ _ _ => exact Or.inl (hquiet (taskOnly_recvSlice inp _ s))
  | finished inp _ _ _ => exact Or.inl (hidle (taskOnly_callback inp s _))
  | failed inp _ => exact Or.inl (hidle (taskOnly_callback inp s _))
  | _ => exact Or.inl (by simp [createSocket, switchToPassive])

/-- The lines in a number of parts. -/
def textsOf (ps : List Bytes) : List Bytes :=
  ps.flatMap fun part => lineTexts (CString.ofBytes part).bytes

/--
Nothing is passed on that was not received, or behind a line that ends the session; and all of
every part but the last one is.
-/
structure Heard (log : List Event) : Prop where
  passed_prefix : passed log <+: textsOf (parts log)
  passed_all : textsOf (parts log).dropLast <+: passed log
  live : ∀ text ∈ (passed log).dropLast, (Event.line text).ends = none

theorem Heard.of_eq {log log' : List Event} (h : Heard log) (hp : passed log' = passed log)
    (hq : parts log' = parts log) : Heard log' := by
  obtain ⟨hpre, hall, hlive⟩ := h
  constructor
  · rwa [hp, hq]
  · rwa [hp, hq]
  · rwa [hp]

theorem Heard.act {s s' : Session} (h : Heard s.log) (hact : Act s s') : Heard s'.log := by
  rcases hact.heard with ⟨hp, hq⟩ | ⟨text, hnext, hlive, hp, hq⟩ | ⟨bytes, hsame, hp, hq⟩
  · exact h.of_eq hp hq
  · constructor
    · rw [hp, hq]
      exact hnext
    · rw [hp, hq]
      exact h.passed_all.trans (List.prefix_append ..)
    · rw [hp, List.dropLast_concat]
      exact hlive
  · rw [show offered s.log = textsOf (parts s.log) from rfl] at hsame
    constructor
    · rw [hp, hq, hsame]
      exact ⟨textsOf [bytes], by simp [textsOf]⟩
    · rw [hp, hq, List.dropLast_concat, hsame]
    · rw [hp]
      exact h.live

theorem Heard.acts {s s' : Session} (h : Heard s.log) (hacts : Acts s s') : Heard s'.log := by
  induction hacts with
  | refl => exact h
  | tail _ hact ih => exact ih.act hact

/-- The end of a round or of the thread adds nothing to what was heard. -/
theorem Break.heard {s s' : Session} {reason : Reason} (h : Break s reason s') :
    passed s'.log = passed s.log ∧ parts s'.log = parts s.log := by
  cases h with
  | noSocket _ _ _ => simp [createSocket]
  | _ => simp

theorem finish_heard (inp : Input) (reason : Reason) (s : Session) :
    passed (finish inp reason s).log = passed s.log ∧
      parts (finish inp reason s).log = parts s.log := by
  have hclose := quiet_closeSockets s
  have hcall := taskOnly_callback inp (closeSockets s) (.disconnect reason)
  simp [finish, disconnect, hcall.passed_eq, hcall.parts_eq, hclose.passed_eq, hclose.parts_eq]

/-- **What a session has heard**, and that it is all as long as the task is not terminated. -/
theorem session_heard (config : Config) (hasCallback : Bool) (task : Task) (inputs : List Input) :
    Heard (session config hasCallback task inputs).log ∧
      ((session config hasCallback task inputs).client.task.type ≠ .termination →
        passed (session config hasCallback task inputs).log
          = textsOf (parts (session config hasCallback task inputs).log)) := by
  have hstart : Heard (sessionStart config hasCallback task).log :=
    ⟨List.nil_prefix, List.nil_prefix, List.forall_mem_nil _⟩
  have hran := session_ran config hasCallback task inputs
  generalize session config hasCallback task inputs = s at hran ⊢
  cases hran with
  | running hacts _ hsync =>
    exact ⟨hstart.acts hacts, fun htype => (hsync.resolve_left htype).2.all⟩
  | terminated inp hacts _ =>
    obtain ⟨hp, hq⟩ := finish_heard inp .termination _
    exact ⟨(hstart.acts hacts).of_eq hp hq, fun h => absurd rfl h⟩
  | @broken inp s₁ s₂ reason hacts hbreak =>
    obtain ⟨hp, hq⟩ := finish_heard inp reason s₂
    obtain ⟨hp', hq'⟩ := hbreak.heard
    exact ⟨(hstart.acts hacts).of_eq (hp.trans hp') (hq.trans hq'), fun h => absurd rfl h⟩

/-! ## Streams of replies -/

/-- A line of a reply: some text, without a line end, a NUL, or nothing but a stray CR. -/
structure ReplyLine (text : Bytes) : Prop where
  oneLine : OneLine text
  noNul : 0 ∉ text
  nonempty : text ≠ []
  notCr : text ≠ [13]

instance (text : Bytes) : Decidable (ReplyLine text) :=
  decidable_of_iff (OneLine text ∧ 0 ∉ text ∧ text ≠ [] ∧ text ≠ [13])
    ⟨fun ⟨h1, h2, h3, h4⟩ => ⟨h1, h2, h3, h4⟩, fun ⟨h1, h2, h3, h4⟩ => ⟨h1, h2, h3, h4⟩⟩

/--
The replies are understood: what is passed on are the lines of the stream, up to the first one
that ends the session, and all of them while the session goes on.
-/
structure Understood (lines : List Bytes) (s : Session) : Prop where
  passed_prefix : passed s.log <+: lines
  live : ∀ text ∈ (passed s.log).dropLast, (Event.line text).ends = none
  complete : s.client.task.type ≠ .termination → (parts s.log).flatten = wire lines →
    passed s.log = lines

/-- The parts after which the session went on. -/
def heardParts (s : Session) : List Bytes :=
  if s.client.task.type = .termination then (parts s.log).dropLast else parts s.log

/-- Without a NUL the whole part is text. -/
theorem textsOf_eq {lines ps : List Bytes} (hlines : ∀ line ∈ lines, ReplyLine line)
    (hstream : ps.flatten <+: wire lines) : textsOf ps = ps.flatMap lineTexts := by
  have hnul : (0 : UInt8) ∉ wire lines := by
    intro h
    simp only [wire, List.mem_flatMap, List.mem_append] at h
    obtain ⟨line, hline, h | h⟩ := h
    · exact (hlines line hline).noNul h
    · simp [crlf] at h
  refine List.flatMap_congr fun part hpart => ?_
  rw [CString.ofBytes_bytes, List.takeWhile_eq_self_iff.mpr]
  intro b hb
  have hmem : b ∈ wire lines := hstream.subset (List.mem_flatten.mpr ⟨part, hpart, hb⟩)
  simp only [bne_iff_ne, ne_eq]
  rintro rfl
  exact hnul hmem

/--
**Replies are understood when every part ends at a line end**, or right in front of the CRLF.
They are not when a part after which the session went on ends anywhere else.
-/
theorem replies_understood_iff (config : Config) (hasCallback : Bool) (task : Task)
    (inputs : List Input) {lines : List Bytes} (hlines : ∀ line ∈ lines, ReplyLine line)
    (hstream : (parts (session config hasCallback task inputs).log).flatten <+: wire lines) :
    (WellCut lines (parts (session config hasCallback task inputs).log) →
        Understood lines (session config hasCallback task inputs)) ∧
      (Understood lines (session config hasCallback task inputs) →
        WellCut lines (heardParts (session config hasCallback task inputs))) := by
  obtain ⟨⟨hpre, hall, hlive⟩, halive⟩ := session_heard config hasCallback task inputs
  generalize session config hasCallback task inputs = s at hstream hpre hall hlive halive ⊢
  have hl : ∀ line ∈ lines, OneLine line ∧ line ≠ [] :=
    fun line h => ⟨(hlines line h).oneLine, (hlines line h).nonempty⟩
  have hcr : [13] ∉ lines := fun h => (hlines _ h).notCr rfl
  have htexts := textsOf_eq hlines hstream
  have hlast : (parts s.log).dropLast.flatten <+: wire lines := by
    refine List.IsPrefix.trans ?_ hstream
    exact (List.dropLast_prefix _).flatten
  constructor
  · intro hcut
    have hread := lineTexts_parts hl hstream hcut
    have hend := (atLineEnd_iff hl hstream).mp (hcut _ (List.prefix_refl _))
    rw [← hread, ← htexts] at hend
    refine ⟨hpre.trans hend, hlive, fun htype hwhole => ?_⟩
    have hfull := lineTexts_wire hl []
    rw [List.append_nil, lineTexts_nil, List.append_nil] at hfull
    rw [halive htype, htexts, hread, hwhole, hfull]
  · rintro ⟨hpassed, -, -⟩
    unfold heardParts
    split
    · refine wellCut_of_begin hl hcr hlast ?_
      rw [← textsOf_eq hlines hlast]
      exact hall.trans hpassed
    · next htype =>
      refine wellCut_of_begin hl hcr hstream ?_
      rw [← htexts, ← halive htype]
      exact hpassed

/-- Two replies, the first of which is handed over in front of its CRLF. -/
theorem replies_understood_iff_two_parts :
    Understood [ascii "220 ready", ascii "200 ok"] (session .plain true .zero
      [.reply (ascii "220 ready"), .reply (ascii "\r\n200 ok\r\n")]) := by
  refine (replies_understood_iff .plain true .zero
    [.reply (ascii "220 ready"), .reply (ascii "\r\n200 ok\r\n")] ?_ ?_).1 ?_
  · decide +kernel
  · decide +kernel
  · exact wellCut_of_begin (by decide +kernel) (by decide +kernel) (by decide +kernel)
      (by decide +kernel)

/-- **A reply that is handed over in two parts** is taken for two lines, and ends the session. -/
theorem reply_in_two_parts : (∀ line ∈ [ascii "220 ready"], ReplyLine line) ∧
    (parts (session .plain true .zero [.reply (ascii "22"), .reply (ascii "0 ready\r\n")]).log
      ).flatten <+: wire [ascii "220 ready"] ∧
    passed (session .plain true .zero [.reply (ascii "22"), .reply (ascii "0 ready\r\n")]).log
      = [ascii "22"] ∧
    ¬ Understood [ascii "220 ready"]
      (session .plain true .zero [.reply (ascii "22"), .reply (ascii "0 ready\r\n")]) := by
  have hpassed : passed (session .plain true .zero
      [.reply (ascii "22"), .reply (ascii "0 ready\r\n")]).log = [ascii "22"] := by decide +kernel
  refine ⟨by decide +kernel, by decide +kernel, hpassed, fun h => ?_⟩
  have hpre := h.passed_prefix
  rw [hpassed] at hpre
  exact absurd hpre (by decide +kernel)

end UniNet.Ftp
