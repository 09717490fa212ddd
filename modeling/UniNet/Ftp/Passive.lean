import UniNet.Ftp.Moves

/-!
# Passive mode

A 227 reply names the address and the port of the data connection as six numbers behind a
parenthesis. `handler_227` reads them with `strtol`, one after the other, and connects to the
port that the last two make up. It never looks at the size of a number, and the port is what
is left of the sum in 16 bits.

* `Numbers` — a list of numbers at the beginning of a text
* `parsePasv_iff` — the loop reads exactly such a list
* `pasv_exact_iff` — a reply is decoded exactly when no number is out of range
* `pasvTarget_encoded` — every port survives the way through the server's encoding
-/

namespace UniNet.Ftp

open Infra

/-! ## The numbers -/

/-- The text begins with these numbers, with a comma between them. -/
def Numbers : List Int → Bytes → Prop
  | [], _ => True
  | [v], text => ∃ rest, strtol text = some (v, rest)
  | v :: vs, text => ∃ rest, strtol text = some (v, 44 :: rest) ∧ Numbers vs rest

/-- The text behind the first parenthesis begins with these six numbers. -/
def Listed (data : List Int) (str : Bytes) : Prop :=
  data.length = 6 ∧ ∃ text, strchrBehind 40 str = some text ∧ Numbers data text

/-- A number that fits into a byte. -/
def InByte (v : Int) : Prop := 0 ≤ v ∧ v ≤ 255

instance (v : Int) : Decidable (InByte v) := inferInstanceAs (Decidable (_ ∧ _))

theorem numbers_cons {v : Int} {vs : List Int} (hvs : vs ≠ []) {text : Bytes} :
    Numbers (v :: vs) text ↔ ∃ rest, strtol text = some (v, 44 :: rest) ∧ Numbers vs rest := by
  cases vs with
  | nil => exact absurd rfl hvs
  | cons w vs => rfl

/-- A number behind which more numbers are expected. -/
theorem parsePasv_succ_iff {n : Nat} (hn : n ≠ 0) {text : Bytes} {data : List Int} :
    parsePasv (n + 1) text = some data ↔ ∃ v rest vs, strtol text = some (v, 44 :: rest) ∧
      parsePasv n rest = some vs ∧ data = v :: vs := by
  rw [parsePasv]
  cases hv : strtol text with
  | none => simp
  | some o =>
    obtain ⟨v, rest⟩ := o
    dsimp only
    rw [if_neg hn]
    split
    · next rest => simp [@eq_comm _ data]
    · next hno =>
      simp only [Option.some.injEq, Prod.mk.injEq, reduceCtorEq, false_iff, not_exists, not_and]
      rintro v' rest' vs ⟨-, hrest⟩
      exact absurd hrest (hno rest')

/-- **The loop reads a list of numbers**, and nothing else. -/
theorem parsePasv_iff {n : Nat} {text : Bytes} {data : List Int} :
    parsePasv (n + 1) text = some data ↔ data.length = n + 1 ∧ Numbers data text := by
  induction n generalizing text data with
  | zero =>
    rw [parsePasv, List.length_eq_one_iff]
    cases hv : strtol text with
    | none =>
      simp only [reduceCtorEq, false_iff, not_and]
      rintro ⟨v, rfl⟩ ⟨rest, hrest⟩
      simp [hv] at hrest
    | some o =>
      simp only [if_true, Option.some.injEq]
      constructor
      · rintro rfl
        exact ⟨⟨o.1, rfl⟩, o.2, hv⟩
      · rintro ⟨⟨v, rfl⟩, rest, hrest⟩
        obtain rfl := Option.some.inj (hv.symm.trans hrest)
        rfl
  | succ n ih =>
    rw [parsePasv_succ_iff (by omega)]
    constructor
    · rintro ⟨v, rest, vs, hv, hvs, rfl⟩
      obtain ⟨hlen, hnumbers⟩ := ih.mp hvs
      have hne : vs ≠ [] := List.ne_nil_of_length_eq_add_one hlen
      exact ⟨by rw [List.length_cons, hlen], (numbers_cons hne).mpr ⟨rest, hv, hnumbers⟩⟩
    · rintro ⟨hlen, hnumbers⟩
      obtain ⟨v, vs, rfl⟩ := List.exists_cons_of_length_eq_add_one hlen
      rw [List.length_cons, Nat.add_right_cancel_iff] at hlen
      obtain ⟨rest, hv, hvs⟩ := (numbers_cons (List.ne_nil_of_length_eq_add_one hlen)).mp hnumbers
      exact ⟨v, rest, vs, hv, ih.mpr ⟨hlen, hvs⟩, rfl⟩

/-- The port of a reply, if it has one. -/
theorem pasvTarget_eq_some {str : Bytes} {port : Nat} :
    pasvTarget str = some port ↔ ∃ data, Listed data str ∧ pasvPort data = port := by
  unfold pasvTarget Listed
  cases htext : strchrBehind 40 str with
  | none => simp
  | some text =>
    dsimp only
    rw [Option.map_eq_some_iff]
    simp only [parsePasv_iff, Option.some.injEq, exists_eq_left']

/-- A text lists at most one sequence of numbers. -/
theorem Listed.unique {data data' : List Int} {str : Bytes} (h : Listed data str)
    (h' : Listed data' str) : data = data' := by
  obtain ⟨hlen, text, htext, hnumbers⟩ := h
  obtain ⟨hlen', text', htext', hnumbers'⟩ := h'
  obtain rfl := Option.some.inj (htext.symm.trans htext')
  exact Option.some.inj
    ((parsePasv_iff.mpr ⟨hlen, hnumbers⟩).symm.trans (parsePasv_iff.mpr ⟨hlen', hnumbers'⟩))

/-- Two bytes make up a port. -/
theorem pasvPort_eq {h1 h2 h3 h4 p1 p2 : Int} (hp1 : InByte p1) (hp2 : InByte p2) :
    (pasvPort [h1, h2, h3, h4, p1, p2] : Int) = 256 * p1 + p2 := by
  obtain ⟨hp1, hp1'⟩ := hp1
  obtain ⟨hp2, hp2'⟩ := hp2
  simp only [pasvPort, List.getD_cons_succ, List.getD_cons_zero]
  omega

/-! ## The connection attempt -/

/-- A socket is asked for, and what is connected is connected to this address and port. -/
structure Attempt (addr port : Nat) (es : List Event) : Prop where
  asked : ∃ sock, .socket .data sock ∈ es
  connects : ∀ sock, .socket .data (some sock) ∈ es →
    ∃ result, .connect .data sock addr port result ∈ es
  only : ∀ role sock addr' port' result, .connect role sock addr' port' result ∈ es →
    role = .data ∧ addr' = addr ∧ port' = port

/-- A call that neither makes nor connects a socket. -/
def Event.isOption : Event → Bool
  | .createSocketSet _ | .setsockopt _ _ | .fdSet _ _ => true
  | _ => false

theorem createSet_log (inp : Input) (s : Session) :
    ∃ es, (createSet inp s).log = s.log ++ es ∧ ∀ e ∈ es, e.isOption = true := by
  unfold createSet
  split
  · exact ⟨_, rfl, by simp [Event.isOption]⟩
  · exact ⟨[], by simp, by simp⟩

theorem prepareSocket_log (inp : Input) (port : Nat) (s : Session) :
    ∃ pre post, (∀ e ∈ pre ++ post, e.isOption = true) ∧ (prepareSocket inp .data port s).log
      = s.log ++ (pre ++
          .socket .data ((prepareSocket inp .data port s).client.socket .data) :: post) := by
  obtain ⟨sets, hlog, hsets⟩ := createSet_log inp s
  rw [prepareSocket_client]
  unfold prepareSocket
  dsimp only
  split
  · next sock hsock =>
    refine ⟨sets, (sockOpts (createSocket inp .data (createSet inp s)).client.config port).map
      (Event.setsockopt sock), ?_, ?_⟩
    · rw [List.forall_mem_append]
      exact ⟨hsets, by simp [Event.isOption]⟩
    · simp [createSocket, hlog]
  · exact ⟨sets, [], by simpa using hsets, by simp [createSocket, hlog]⟩

/-- One socket, one attempt to connect it, and options around. -/
theorem attempt_of (pre post tail : List Event) (h : ∀ e ∈ pre ++ post ++ tail, e.isOption = true)
    (sock : Socket) (addr port : Nat) (result : Int) :
    Attempt addr port (pre ++ .socket .data (some sock) ::
      (post ++ .connect .data sock addr port result :: tail)) := by
  have hsocket : ∀ sock, .socket .data sock ∉ pre ++ post ++ tail :=
    fun _ hm => by simpa [Event.isOption] using h _ hm
  have hconnect : ∀ role sock addr port result,
      .connect role sock addr port result ∉ pre ++ post ++ tail :=
    fun _ _ _ _ _ hm => by simpa [Event.isOption] using h _ hm
  simp only [List.mem_append, not_or] at hsocket hconnect
  constructor
  · exact ⟨some sock, by simp⟩
  · intro sock' hm
    obtain rfl : sock' = sock := by simpa [hsocket] using hm
    exact ⟨result, by simp⟩
  · intro role sock' addr' port' result' hm
    have heq : role = .data ∧ sock' = sock ∧ addr' = addr ∧ port' = port ∧ result' = result := by
      simpa [hconnect] using hm
    exact ⟨heq.1, heq.2.2.1, heq.2.2.2.1⟩

/-- **A data connection is attempted** with the address of the server and this port. -/
theorem connectSocket_attempt (inp : Input) (port : Nat) (s : Session) :
    ∃ es, (connectSocket inp .data port s).1.log = s.log ++ es ∧
      Attempt s.client.config.serverAddr port es := by
  obtain ⟨pre, post, hopts, hlog⟩ := prepareSocket_log inp port s
  have hconfig := (plain_prepareSocket inp .data port s).config
  unfold connectSocket
  dsimp only
  cases hsock : (prepareSocket inp .data port s).client.socket .data with
  | none =>
    refine ⟨_, hlog, ?_⟩
    rw [hsock]
    constructor
    · exact ⟨none, by simp⟩
    · intro sock hm
      have hm' : .socket .data (some sock) ∈ pre ++ post := by simpa using hm
      simpa [Event.isOption] using hopts _ hm'
    · intro role sock addr port result hm
      have hm' : .connect role sock addr port result ∈ pre ++ post := by simpa using hm
      simpa [Event.isOption] using hopts _ hm'
  | some sock =>
    dsimp only
    rw [hconfig]
    generalize freertosConnect inp _ sock = result
    split
    · refine ⟨_, ?_, attempt_of pre post [.fdSet sock
        (prepareSocket inp .data port s).client.socketSet] ?_ sock _ port result⟩
      · simp [hlog, hsock]
      · rw [List.forall_mem_append]
        exact ⟨hopts, by simp [Event.isOption]⟩
    · refine ⟨_, ?_, attempt_of pre post [] ?_ sock _ port result⟩
      · simp [hlog, hsock]
      · simpa using hopts

/-! ## Decoding a reply -/

/-- What a 227 reply with these numbers asks for. -/
def Asks (data : List Int) (str : Bytes) : Prop := Listed data str ∧ ∀ v ∈ data, InByte v

/--
A 227 reply is decoded exactly: a data connection is attempted if and only if the reply lists six
numbers of a byte each, and the attempt goes to the port that the last two make up.
-/
def Decoded (inp : Input) (s : Session) (str : Bytes) : Prop :=
  ∃ es, (handler227 inp s str).log = s.log ++ es ∧
    ((∃ sock, .socket .data sock ∈ es) ↔ ∃ data, Asks data str) ∧
    ∀ h1 h2 h3 h4 p1 p2, Asks [h1, h2, h3, h4, p1, p2] str →
      ∃ port : Nat, (port : Int) = 256 * p1 + p2 ∧ Attempt s.client.config.serverAddr port es

theorem Attempt.setType {addr port : Nat} {es : List Event} (h : Attempt addr port es)
    (type : TaskType) : Attempt addr port (es ++ [.setType type]) := by
  obtain ⟨hasked, hconnects, honly⟩ := h
  constructor
  · simpa using hasked
  · simpa using hconnects
  · simpa using honly

theorem handler227_some (inp : Input) (s : Session) {str : Bytes} {port : Nat}
    (h : pasvTarget str = some port) :
    ∃ es, (handler227 inp s str).log = s.log ++ es ∧
      Attempt s.client.config.serverAddr port es := by
  obtain ⟨es, hlog, hattempt⟩ := connectSocket_attempt inp port s
  unfold handler227
  rw [h]
  dsimp only
  split
  · exact ⟨es, hlog, hattempt⟩
  · exact ⟨es ++ [.setType .termination], by simp [hlog], hattempt.setType .termination⟩

theorem handler227_none (inp : Input) (s : Session) {str : Bytes} (h : pasvTarget str = none) :
    (handler227 inp s str).log = s.log ++ [.setType .termination] := by
  unfold handler227
  rw [h]
  rfl

/-- A reply without six numbers of any size. -/
theorem not_listed {str : Bytes} (h : pasvTarget str = none) (data : List Int) :
    ¬ Listed data str := by
  intro hlisted
  have hsome := pasvTarget_eq_some.mpr ⟨data, hlisted, rfl⟩
  simp [h] at hsome

/-- **A reply is decoded exactly** when it lists no number that is out of range. -/
theorem decoded_iff (inp : Input) (s : Session) (str : Bytes) :
    Decoded inp s str ↔ ∀ data, Listed data str → ∀ v ∈ data, InByte v := by
  cases htarget : pasvTarget str with
  | none =>
    refine ⟨fun _ data hlisted => absurd hlisted (not_listed htarget data), fun _ => ?_⟩
    refine ⟨_, handler227_none inp s htarget, ?_, ?_⟩
    · simp only [List.mem_singleton, reduceCtorEq, exists_false, false_iff, not_exists]
      exact fun data hasks => not_listed htarget data hasks.1
    · exact fun _ _ _ _ _ _ hasks => absurd hasks.1 (not_listed htarget _)
  | some port =>
    obtain ⟨es, hlog, hattempt⟩ := handler227_some inp s htarget
    obtain ⟨data, hlisted, rfl⟩ := pasvTarget_eq_some.mp htarget
    constructor
    · rintro ⟨es', hlog', hiff, -⟩ data' hlisted'
      -- the attempt is made whatever the numbers are
      obtain rfl := List.append_cancel_left (hlog'.symm.trans hlog)
      obtain ⟨data'', hasks⟩ := hiff.mp hattempt.asked
      rw [hlisted'.unique hasks.1]
      exact hasks.2
    · intro hrange
      refine ⟨es, hlog, ⟨fun _ => ?_, fun _ => hattempt.asked⟩, ?_⟩
      · exact ⟨data, hlisted, hrange data hlisted⟩
      · intro h1 h2 h3 h4 p1 p2 hasks
        obtain rfl := hasks.1.unique hlisted
        exact ⟨_, pasvPort_eq (hasks.2 p1 (by simp)) (hasks.2 p2 (by simp)), hattempt⟩

/-! ## Every port survives -/

/-- Numbers with a comma between them, as a server writes them. -/
def joined : List Nat → Bytes → Bytes
  | [], rest => rest
  | [n], rest => decText n ++ rest
  | n :: ns, rest => decText n ++ 44 :: joined ns rest

theorem numbers_joined {ns : List Nat} (h : ∀ n ∈ ns, n < 2 ^ 31) {rest : Bytes}
    (hrest : ∀ b ∈ rest.head?, isDecDigit b = false) :
    Numbers (ns.map Int.ofNat) (joined ns rest) := by
  induction ns with
  | nil => trivial
  | cons n ns ih =>
    rw [List.forall_mem_cons] at h
    cases ns with
    | nil => exact ⟨rest, strtol_decText h.1 hrest⟩
    | cons m ns => exact ⟨_, strtol_decText h.1 (by simp; decide), ih h.2⟩

theorem strchrBehind_append {c : UInt8} {front : Bytes} (h : c ∉ front) (rest : Bytes) :
    strchrBehind c (front ++ c :: rest) = some rest := by
  have hdrop : (front ++ c :: rest).dropWhile (· != c) = c :: rest := by
    rw [List.dropWhile_append_of_pos fun b hb => by simpa using fun hbc : b = c => h (hbc ▸ hb)]
    simp
  unfold strchrBehind
  rw [hdrop]

/-- **Decoding undoes the encoding** of every host and every port. -/
theorem pasvTarget_encoded {front : Bytes} (hfront : 40 ∉ front) (h1 h2 h3 h4 : UInt8)
    (port : UInt16) (rest : Bytes) :
    pasvTarget (front ++ 40 :: joined [h1.toNat, h2.toNat, h3.toNat, h4.toNat,
      port.toNat / 256, port.toNat % 256] (41 :: rest)) = some port.toNat := by
  have hport : port.toNat < 2 ^ 16 := port.toNat_lt
  have hbyte : ∀ b : UInt8, b.toNat < 2 ^ 31 := fun b => b.toNat_lt.trans (by decide)
  rw [pasvTarget_eq_some]
  refine ⟨_, ⟨rfl, _, strchrBehind_append hfront _, numbers_joined ?_ ?_⟩, ?_⟩
  · simp only [List.forall_mem_cons, hbyte, true_and]
    exact ⟨by omega, by omega, List.forall_mem_nil _⟩
  · simp only [List.head?_cons, Option.mem_some_iff, forall_eq']
    rfl
  · simp only [pasvPort, List.map_cons, List.getD_cons_succ, List.getD_cons_zero,
      Int.ofNat_eq_natCast]
    omega

/--
**When 227 replies are decoded exactly.** No reply may list a number that is out of range; and what
a server writes for a port is always read back.
-/
theorem pasv_exact_iff (inp : Input) (s : Session) (str : Bytes) :
    (Decoded inp s str ↔ ∀ data, Listed data str → ∀ v ∈ data, InByte v) ∧
    ∀ (front rest : Bytes) (h1 h2 h3 h4 : UInt8) (port : UInt16), 40 ∉ front →
      str = front ++ 40 :: joined [h1.toNat, h2.toNat, h3.toNat, h4.toNat,
        port.toNat / 256, port.toNat % 256] (41 :: rest) →
      pasvTarget str = some port.toNat := by
  refine ⟨decoded_iff inp s str, ?_⟩
  rintro front rest h1 h2 h3 h4 port hfront rfl
  exact pasvTarget_encoded hfront h1 h2 h3 h4 port rest

/-- Port 1286, as a server at 1.2.3.4 writes it. -/
theorem pasv_exact_port :
    pasvTarget (ascii "Entering Passive Mode " ++ 40 :: joined [1, 2, 3, 4, 5, 6] [41])
      = some 1286 :=
  (pasv_exact_iff .idle (sessionStart .plain true .zero) _).2
    (ascii "Entering Passive Mode ") [] 1 2 3 4 1286 (by decide) rfl

/--
**A number that is out of range becomes another port**: 256 and 1 make up port 1, and that is
where the client connects to.
-/
theorem pasv_out_of_range :
    ¬ Decoded .idle (sessionStart .plain true .zero) (ascii "Passive (1,2,3,4,256,1)") ∧
      (session .plain true .zero [.reply (ascii "227 (1,2,3,4,256,1)\r\n")]).log.filterMap (fun
        | .connect .data _ _ port _ => some port
        | _ => none) = [1] := by
  refine ⟨?_, by decide +kernel⟩
  rw [decoded_iff]
  intro hrange
  have hlisted : Listed [1, 2, 3, 4, 256, 1] (ascii "Passive (1,2,3,4,256,1)") := by
    refine ⟨rfl, ascii "1,2,3,4,256,1)", by decide +kernel, ?_⟩
    exact (parsePasv_iff.mp (show parsePasv 6 _ = _ by decide +kernel)).2
  exact absurd (hrange _ hlisted 256 (by simp)) (by decide)

end UniNet.Ftp
