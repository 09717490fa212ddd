import UniNet.Http.Lines
import UniNet.Infra.Access

/-!
# The parser stays inside the request

The loops of the parser once more, this time as programs that read and write a buffer. Each
reads a byte when the source does: the second byte of a CRLF only behind a CR, the bytes of the
field name only up to the first difference, and the bytes of a line only in front of its end.

Every loop is shown to end with what the functions of `Parser` compute, and to touch nothing
behind its bound.

* `parseMethod_ends` — the method loop reads received bytes only
* `parseUrl_ends` — the URL loop ends with a NUL in the header block
* `parseLength_ends` — the search for the end of the request line and the scan behind it
-/

namespace UniNet.Http

open Infra

/-! ## The source -/

/-- `p[0] == '\r' && p[1] == '\n'`. -/
def testCrlf (i : Nat) : Prog Bool := do
  if (← Prog.read i) = 13 then return (← Prog.read (i + 1)) == 10 else return false

/-- The search for `hdr_end`. -/
def findHdrEnd (fuel rxLen : Nat) : Prog (Option Nat) := do
  let found ← Prog.search (fun i => do
    if ← testCrlf i then testCrlf (i + 2) else return false) (rxLen - 3) fuel 0
  return found.map (· + 4)

/-- `memcmp(name, buf + i, n) == 0`. The library may look at all `n` bytes, and here it does. -/
def testName : Nat → Bytes → Prog Bool
  | _, [] => return true
  | i, b :: name => do
    let b' ← Prog.read i
    let rest ← testName (i + 1) name
    return b' == b && rest

/-- The loop over the rows of `g_UNI_NET_http_cmd`. -/
def findMethod (rxLen : Nat) : List HttpCommand → Prog (Option HttpCommand)
  | [] => return none
  | cmd :: rows =>
    if cmd.cmdLen ≤ rxLen then do
      if ← testName 0 (cmd.cmdName.take cmd.cmdLen) then return some cmd
      else findMethod rxLen rows
    else findMethod rxLen rows

/-- The method of the request; the last row of the table is never compared. -/
def parseMethod (rxLen : Nat) : Prog (Option HttpCommand) :=
  findMethod rxLen (httpCmd.take (httpCmd.length - 1))

/-- The URL that starts at `url`, with the NUL that ends it; `none` is the 400. -/
def parseUrl (fuel url hdrEnd : Nat) : Prog (Option Nat) := do
  match ← Prog.search (fun i => do return isUrlEnd (← Prog.read i)) hdrEnd fuel url with
  | some i => do
    Prog.write i 0
    return some i
  | none => return none

/-- The end of the request line. -/
def skipRequestLine (fuel hdrEnd : Nat) : Prog Nat := do
  match ← Prog.search testCrlf (hdrEnd - 1) fuel 0 with
  | some i => return i + 2
  | none => return hdrEnd - 1

/-- The comparison with the field name, from its byte `i` on, which breaks at a difference. -/
def testField (p : Nat) : Nat → Bytes → Prog Bool
  | _, [] => return true
  | i, b :: name => do
    if toLower (← Prog.read (p + i)) = toLower b then testField p (i + 1) name else return false

/-- The digit loop: `val` once `any` is set. -/
def parseDigits (fuel e j : Nat) : Prog (Option Nat) :=
  Prog.loop (fun (s : Nat × Option Nat) =>
    if s.1 < e then do
      let b ← Prog.read s.1
      if isDecDigit b = true then
        return .inl (s.1 + 1, some (u32 (s.2.getD 0 * 10 + (b.toNat - 48))))
      else return .inr s.2
    else return .inr s.2) fuel (j, none)

/-- What a line `[p, e)` announces. -/
def parseLine (fuel p e : Nat) : Prog (Option Nat) :=
  if clName.length ≤ e - p then do
    if ← testField p 0 clName then do
      let j ← Prog.search (fun k => do return !isBlank (← Prog.read k)) e fuel (p + clName.length)
      parseDigits fuel e (j.getD e)
    else return none
  else return none

/-- The loop over the header lines. -/
def parseLength (fuel hdrEnd : Nat) : Prog (Option Nat) := do
  let start ← skipRequestLine fuel hdrEnd
  Prog.loop (fun (s : Nat × Option Nat) =>
    if s.1 + 1 < hdrEnd then do
      if ← testCrlf s.1 then return .inr s.2
      else do
        let e ← Prog.search testCrlf (hdrEnd - 1) fuel s.1
        let found ← parseLine fuel s.1 (e.getD (hdrEnd - 1))
        return .inl (e.getD (hdrEnd - 1) + 2, found.or s.2)
    else return .inr s.2) fuel (start, none)

/-- What `client_work` does with a header block once the method is known. -/
def parseHeaders (fuel hdrEnd : Nat) (cmd : HttpCommand) : Prog (Option (Nat × Option Nat)) := do
  match ← parseUrl fuel (cmd.cmdLen + 1) hdrEnd with
  | some i => return some (i, ← parseLength fuel hdrEnd)
  | none => return none

/-! ## Bytes and names -/

section

variable {ok : Access → Prop} {buf : Bytes}

theorem testCrlf_ends {i : Nat} (h : ok (.read i)) (h' : ok (.read (i + 1))) :
    Ends ok (testCrlf i) buf fun b buf' => b = crlfAt buf i ∧ buf' = buf := by
  refine Ends.bind (Q := fun b buf' => b = byteAt buf i ∧ buf' = buf)
    (Ends.read h ⟨rfl, rfl⟩) ?_
  rintro _ buf ⟨rfl, rfl⟩
  unfold crlfAt
  by_cases hcr : byteAt buf i = 13
  · rw [if_pos hcr]
    refine Ends.bind (Q := fun b buf' => b = byteAt buf (i + 1) ∧ buf' = buf)
      (Ends.read h' ⟨rfl, rfl⟩) ?_
    rintro _ buf ⟨rfl, rfl⟩
    exact Ends.pure ⟨by simp [hcr], rfl⟩
  · rw [if_neg hcr]
    exact Ends.pure ⟨by simp [hcr], rfl⟩

theorem findHdrEnd_ends {fuel rxLen : Nat} (hfuel : rxLen < fuel) (buf : Bytes) :
    Ends (fun a => ∃ i, a = .read i ∧ i < rxLen) (findHdrEnd fuel rxLen) buf fun r buf' =>
      r = hdrEnd buf rxLen ∧ buf' = buf := by
  refine Ends.bind (Ends.search (p := fun i => crlfAt buf i && crlfAt buf (i + 2)) ?_
    (by omega) (by omega)) ?_
  · intro i _ hi
    refine Ends.bind (testCrlf_ends ⟨i, rfl, by omega⟩ ⟨i + 1, rfl, by omega⟩) ?_
    rintro _ buf ⟨rfl, rfl⟩
    by_cases hcr : crlfAt buf i = true
    · rw [if_pos hcr]
      refine (testCrlf_ends ⟨i + 2, rfl, by omega⟩ ⟨i + 3, rfl, by omega⟩).mono ?_
      rintro _ buf ⟨rfl, rfl⟩
      exact ⟨by simp [hcr], rfl⟩
    · rw [if_neg hcr]
      exact Ends.pure ⟨by simp [hcr], rfl⟩
  · rintro _ buf ⟨rfl, rfl⟩
    exact Ends.pure ⟨rfl, rfl⟩

theorem testName_ends (name : Bytes) : ∀ (i : Nat), i + name.length ≤ buf.length →
    (∀ j, i ≤ j → j < i + name.length → ok (.read j)) →
    Ends ok (testName i name) buf fun b buf' =>
      b = ((buf.drop i).take name.length == name) ∧ buf' = buf := by
  induction name with
  | nil => intro i _ _; exact Ends.pure ⟨by simp, rfl⟩
  | cons a name ih =>
    intro i hlen hok
    rw [List.length_cons] at hlen hok
    refine Ends.bind (Q := fun b buf' => b = byteAt buf i ∧ buf' = buf)
      (Ends.read (hok i (by omega) (by omega)) ⟨rfl, rfl⟩) ?_
    rintro _ buf ⟨rfl, rfl⟩
    refine Ends.bind (ih (i + 1) (by omega) fun j h1 h2 => hok j (by omega) (by omega)) ?_
    rintro _ buf ⟨rfl, rfl⟩
    refine Ends.pure ⟨?_, rfl⟩
    rw [List.drop_eq_getElem_cons (show i < buf.length by omega), List.length_cons,
      List.take_succ_cons, byteAt, List.getD_eq_getElem _ _ (show i < buf.length by omega)]
    rfl

theorem testField_ends (p : Nat) (name : Bytes) : ∀ (i : Nat),
    (∀ j, i ≤ j → j < i + name.length → ok (.read (p + j))) →
    Ends ok (testField p i name) buf fun b buf' =>
      b = ((List.range name.length).all fun k =>
        toLower (byteAt buf (p + (i + k))) == toLower (byteAt name k)) ∧ buf' = buf := by
  induction name with
  | nil => intro i _; exact Ends.pure ⟨rfl, rfl⟩
  | cons a name ih =>
    intro i hok
    rw [List.length_cons] at hok
    refine Ends.bind (Q := fun b buf' => b = byteAt buf (p + i) ∧ buf' = buf)
      (Ends.read (hok i (by omega) (by omega)) ⟨rfl, rfl⟩) ?_
    rintro _ buf ⟨rfl, rfl⟩
    rw [List.length_cons, List.range_succ_eq_map, List.all_cons, List.all_map]
    by_cases heq : toLower (byteAt buf (p + i)) = toLower a
    · rw [if_pos heq]
      refine (ih (i + 1) fun j h1 h2 => hok j (by omega) (by omega)).mono ?_
      rintro _ buf ⟨rfl, rfl⟩
      refine ⟨?_, rfl⟩
      have hhead : (toLower (byteAt buf (p + (i + 0))) == toLower (byteAt (a :: name) 0)) = true :=
        beq_iff_eq.mpr heq
      rw [hhead, Bool.true_and]
      congr 1
      funext k
      simp only [Function.comp, Nat.add_assoc, Nat.add_comm 1 k]
      rfl
    · rw [if_neg heq]
      refine Ends.pure ⟨?_, rfl⟩
      have hhead : (toLower (byteAt buf (p + (i + 0))) == toLower (byteAt (a :: name) 0)) = false :=
        beq_eq_false_iff_ne.mpr heq
      rw [hhead, Bool.false_and]

end

/-! ## The method -/

theorem findMethod_ends {buf : Bytes} {rxLen : Nat} (hlen : rxLen ≤ buf.length) :
    ∀ rows : List HttpCommand, (∀ cmd ∈ rows, cmd.cmdName.length = cmd.cmdLen) →
    Ends (fun a => ∃ i, a = .read i ∧ i < rxLen) (findMethod rxLen rows) buf fun r buf' =>
      r = rows.find? (fun cmd =>
        decide (cmd.cmdLen ≤ rxLen) && memcmpEq cmd.cmdName buf cmd.cmdLen) ∧ buf' = buf := by
  intro rows
  induction rows with
  | nil => intro _; exact Ends.pure ⟨rfl, rfl⟩
  | cons cmd rows ih =>
    intro hrows
    rw [List.forall_mem_cons] at hrows
    rw [findMethod, List.find?_cons]
    by_cases hle : cmd.cmdLen ≤ rxLen
    · have htake : cmd.cmdName.take cmd.cmdLen = cmd.cmdName :=
        List.take_of_length_le (Nat.le_of_eq hrows.1)
      rw [if_pos hle, htake]
      refine Ends.bind (testName_ends cmd.cmdName 0 (by omega) fun j _ h2 => ⟨j, rfl, by omega⟩) ?_
      rintro _ buf ⟨rfl, rfl⟩
      have hmatch : ((buf.drop 0).take cmd.cmdName.length == cmd.cmdName)
          = memcmpEq cmd.cmdName buf cmd.cmdLen := by
        rw [memcmpEq, htake, List.drop_zero, hrows.1, Bool.beq_comm]
      rw [hmatch, decide_eq_true hle, Bool.true_and]
      by_cases hm : memcmpEq cmd.cmdName buf cmd.cmdLen = true
      · rw [if_pos hm, hm]
        exact Ends.pure ⟨rfl, rfl⟩
      · rw [if_neg hm, Bool.not_eq_true _ |>.mp hm]
        exact ih hrows.2
    · rw [if_neg hle, decide_eq_false hle, Bool.false_and]
      exact ih hrows.2

/-- **The method loop reads received bytes only.** -/
theorem parseMethod_ends {buf : Bytes} {rxLen : Nat} (hlen : rxLen ≤ buf.length) :
    Ends (fun a => ∃ i, a = .read i ∧ i < rxLen) (parseMethod rxLen) buf fun r buf' =>
      r = findCmd buf rxLen ∧ buf' = buf :=
  findMethod_ends hlen _ fun cmd hcmd => (httpCmd_rows cmd hcmd).1

/-! ## The URL -/

/-- What the loops behind the method may touch. -/
def Below (e : Nat) (a : Access) : Prop := a.index < e

/-- **The URL of a block ends inside it**: the search never gets to the end, and the NUL takes the
place of the byte it finds. -/
theorem parseUrl_ends {buf : Bytes} {rxLen e fuel : Nat} {cmd : HttpCommand}
    (hfuel : e < fuel) (he : hdrEnd buf rxLen = some e) (hcmd : findCmd buf rxLen = some cmd) :
    Ends (Below e) (parseUrl fuel (cmd.cmdLen + 1) e) buf fun r buf' =>
      ∃ i, r = some i ∧ urlEnd buf (cmd.cmdLen + 1) e = some i ∧ buf' = buf.set i 0 := by
  have hle : cmd.cmdLen + 1 ≤ e := by
    have := findCmd_cmdLen he hcmd
    omega
  obtain ⟨i, hi, -⟩ := urlEnd_isSome he hcmd
  refine Ends.bind (Ends.search (p := fun i => isUrlEnd (byteAt buf i)) ?_ (by omega) hle) ?_
  · intro j _ hj
    refine Ends.bind (Q := fun b buf' => b = byteAt buf j ∧ buf' = buf)
      (Ends.read hj ⟨rfl, rfl⟩) ?_
    rintro _ buf ⟨rfl, rfl⟩
    exact Ends.pure ⟨rfl, rfl⟩
  · rintro _ buf ⟨rfl, rfl⟩
    have hfind : findFrom (fun i => isUrlEnd (byteAt buf i)) (cmd.cmdLen + 1) e = some i := hi
    rw [hfind]
    refine Ends.bind (Q := fun _ buf' => buf' = buf.set i 0)
      (Ends.write (findFrom_eq_some.mp hfind).1.2 rfl) ?_
    rintro _ buf' rfl
    exact Ends.pure ⟨i, rfl, hi, rfl⟩

/-! ## The length -/

section

variable {buf : Bytes} {e fuel : Nat}

/-- The accumulator of the digit loop behind the digits `ds`. -/
def digitsAcc (cl : Option Nat) (ds : Bytes) : Option Nat :=
  ds.foldl (fun cl b => some (u32 (cl.getD 0 * 10 + (b.toNat - 48)))) cl

theorem digitsAcc_some (ds : Bytes) : ∀ val : Nat, digitsAcc (some val) ds
    = some (ds.foldl (fun val b => u32 (val * 10 + (b.toNat - 48))) val) := by
  induction ds with
  | nil => intro val; rfl
  | cons b ds ih => intro val; exact ih _

theorem digitsAcc_none (ds : Bytes) :
    digitsAcc none ds = if ds ≠ [] then some (u32Digits ds) else none := by
  cases ds with
  | nil => rfl
  | cons b ds => exact digitsAcc_some ds _

theorem digitsAcc_digitRun {j : Nat} (hj : j ≤ e) (he : e ≤ buf.length) :
    digitsAcc none (((buf.take e).drop j).takeWhile isDecDigit)
      = (digitRun buf j e).map u32Digits := by
  have hrun := digitRun_append (buf.take j) ((buf.take e).drop j) (buf.drop e)
  have hfront : (buf.take j).length = j := List.length_take_of_le (by omega)
  have htext : (buf.take e).take j = buf.take j := by rw [List.take_take, Nat.min_eq_left hj]
  have hend : j + ((buf.take e).drop j).length = e := by
    rw [List.length_drop, List.length_take]
    omega
  rw [← List.append_assoc, ← htext, List.take_append_drop, List.take_append_drop, htext, hfront,
    hend] at hrun
  rw [digitsAcc_none, hrun]
  split <;> rfl

theorem parseDigits_ends {j : Nat} (hfuel : e < fuel) (hj : j ≤ e) (he : e ≤ buf.length) :
    Ends (Below e) (parseDigits fuel e j) buf fun r buf' =>
      r = (digitRun buf j e).map u32Digits ∧ buf' = buf := by
  -- the digits still ahead make the rest of the result
  refine Ends.loop (fun s buf' => s.1 ≤ e ∧
      digitsAcc s.2 (((buf.take e).drop s.1).takeWhile isDecDigit)
        = (digitRun buf j e).map u32Digits ∧ buf' = buf) (fun s => e - s.1) ?_ fuel (j, none) buf
    ⟨hj, digitsAcc_digitRun hj he, rfl⟩ (by omega)
  rintro ⟨k, cl⟩ buf ⟨hk, hrest, rfl⟩
  have hlen : (buf.take e).length = e := List.length_take_of_le he
  by_cases hlt : k < e
  · rw [if_pos hlt]
    refine Ends.bind (Q := fun b buf' => b = byteAt buf k ∧ buf' = buf)
      (Ends.read hlt ⟨rfl, rfl⟩) ?_
    rintro _ buf ⟨rfl, rfl⟩
    have hbyte : (buf.take e).drop k = byteAt buf k :: (buf.take e).drop (k + 1) := by
      rw [List.drop_eq_getElem_cons (by omega), List.getElem_take, byteAt,
        List.getD_eq_getElem _ _ (by omega)]
    rw [hbyte, List.takeWhile_cons] at hrest
    by_cases hd : isDecDigit (byteAt buf k) = true
    · rw [if_pos hd] at hrest ⊢
      exact Ends.pure ⟨⟨hlt, hrest, rfl⟩, by omega⟩
    · rw [if_neg hd] at hrest ⊢
      exact Ends.pure ⟨hrest, rfl⟩
  · rw [if_neg hlt]
    rw [List.drop_of_length_le (by omega)] at hrest
    exact Ends.pure ⟨hrest, rfl⟩

theorem parseLine_ends {p : Nat} (hfuel : e < fuel) (he : e ≤ buf.length) :
    Ends (Below e) (parseLine fuel p e) buf fun r buf' =>
      r = (lineDigits buf p e).map u32Digits ∧ buf' = buf := by
  unfold parseLine lineDigits
  by_cases hlen : clName.length ≤ e - p
  · have hpos : 0 < clName.length := by decide
    rw [if_pos hlen]
    refine Ends.bind (testField_ends p clName 0 fun j _ hj => show p + j < e by omega) ?_
    rintro _ buf ⟨rfl, rfl⟩
    have hname : ((List.range clName.length).all fun k =>
        toLower (byteAt buf (p + (0 + k))) == toLower (byteAt clName k)) = nameMatch buf p := by
      simp only [Nat.zero_add, nameMatch]
    rw [hname]
    by_cases hmatch : nameMatch buf p = true
    · rw [if_pos hmatch, if_pos ⟨hlen, hmatch⟩]
      refine Ends.bind (Ends.search (p := fun k => !isBlank (byteAt buf k)) ?_ (by omega)
        (by omega)) ?_
      · intro k _ hk
        refine Ends.bind (Q := fun b buf' => b = byteAt buf k ∧ buf' = buf)
          (Ends.read hk ⟨rfl, rfl⟩) ?_
        rintro _ buf ⟨rfl, rfl⟩
        exact Ends.pure ⟨rfl, rfl⟩
      · rintro _ buf ⟨rfl, rfl⟩
        exact parseDigits_ends hfuel findFrom_getD_le he
    · rw [if_neg hmatch, if_neg fun h => hmatch h.2]
      exact Ends.pure ⟨rfl, rfl⟩
  · rw [if_neg hlen, if_neg fun h => hlen h.1]
    exact Ends.pure ⟨rfl, rfl⟩

theorem skipRequestLine_ends (hfuel : e < fuel) :
    Ends (Below e) (skipRequestLine fuel e) buf fun r buf' =>
      r = requestLineEnd buf e ∧ buf' = buf := by
  unfold requestLineEnd
  refine Ends.bind (Ends.search (p := crlfAt buf) ?_ (by omega) (by omega)) ?_
  · intro i _ hi
    exact testCrlf_ends (show i < e by omega) (show i + 1 < e by omega)
  · rintro _ buf ⟨rfl, rfl⟩
    cases findFrom (crlfAt buf) 0 (e - 1) with
    | none => exact Ends.pure ⟨rfl, rfl⟩
    | some i => exact Ends.pure ⟨rfl, rfl⟩

/-- **The request line and the lines behind it are read inside the block.** -/
theorem parseLength_ends (hfuel : e < fuel) (he : e ≤ buf.length) :
    Ends (Below e) (parseLength fuel e) buf fun r buf' =>
      r = contentLength u32Digits buf e ∧ buf' = buf := by
  refine Ends.bind (skipRequestLine_ends (by omega)) ?_
  rintro _ buf ⟨rfl, rfl⟩
  -- the lines still ahead give the rest of the result
  refine Ends.loop (fun s buf' => scanLines u32Digits buf e e s.1 s.2
      = contentLength u32Digits buf e ∧ buf' = buf) (fun s => e - s.1) ?_ fuel _ buf
    ⟨rfl, rfl⟩ (by omega)
  rintro ⟨p, cl⟩ buf ⟨hrest, rfl⟩
  by_cases hp : p + 1 < e
  · rw [if_pos hp]
    obtain ⟨k, rfl⟩ : ∃ k, e = k + 1 := ⟨e - 1, by omega⟩
    rw [scanLines, if_pos hp] at hrest
    refine Ends.bind (testCrlf_ends (show p < k + 1 by omega) (show p + 1 < k + 1 by omega)) ?_
    rintro _ buf ⟨rfl, rfl⟩
    by_cases hcr : crlfAt buf p = true
    · rw [if_pos hcr] at hrest ⊢
      exact Ends.pure ⟨hrest, rfl⟩
    · rw [if_neg hcr] at hrest ⊢
      refine Ends.bind (Ends.search (p := crlfAt buf) ?_ (by omega) (by omega)) ?_
      · intro i _ hi
        exact testCrlf_ends (show i < k + 1 by omega) (show i + 1 < k + 1 by omega)
      · rintro _ buf ⟨rfl, rfl⟩
        have hline := lineEnd_bounds buf hp
        change Ends _ (parseLine fuel p (lineEnd buf p (k + 1)) >>= _) _ _
        refine Ends.bind ((parseLine_ends (by omega) (by omega)).allow
          fun a ha => Nat.lt_trans ha hline.2) ?_
        rintro _ buf ⟨rfl, rfl⟩
        refine Ends.pure ⟨⟨?_, rfl⟩, ?_⟩
        · rw [scanLines_fuel (k + 1) k _ _ (by omega) (by omega)]
          exact hrest
        · change k + 1 - (lineEnd buf p (k + 1) + 2) < k + 1 - p
          omega
  · rw [if_neg hp]
    have hdone : scanLines u32Digits buf e e p cl = cl := by
      cases e with
      | zero => rfl
      | succ k => rw [scanLines, if_neg hp]
    exact Ends.pure ⟨hdone.symm.trans hrest, rfl⟩

end

/-! ## The request -/

/--
**The parser stays inside the request.** In a buffer whose first CRLFCRLF ends at `e`, with any
fuel of more than the received bytes:

* the search for the end of the header block and the method loop end and only read, in front of
  `rxLen`,
* the rest ends with the URL and the length, and touches nothing at `e` or behind it,
* the URL ends inside the header block with a NUL, so it is never answered with 400.
-/
theorem parser_inside {buf : Bytes} {rxLen e fuel : Nat} (hlen : rxLen ≤ buf.length)
    (he : hdrEnd buf rxLen = some e) (hfuel : rxLen < fuel) :
    (Ends (fun a => ∃ i, a = .read i ∧ i < rxLen) (findHdrEnd fuel rxLen) buf fun r buf' =>
      r = some e ∧ buf' = buf)
    ∧ (Ends (fun a => ∃ i, a = .read i ∧ i < rxLen) (parseMethod rxLen) buf fun r buf' =>
      r = findCmd buf rxLen ∧ buf' = buf)
    ∧ ∀ cmd, findCmd buf rxLen = some cmd →
      Ends (fun a => a.index < e) (parseHeaders fuel e cmd) buf fun r buf' =>
        ∃ i, r = some (i, contentLength u32Digits buf' e) ∧ buf' = buf.set i 0
          ∧ urlEnd buf (cmd.cmdLen + 1) e = some i ∧ i < e ∧ byteAt buf' i = 0 := by
  have hle := hdrEnd_le he
  refine ⟨?_, parseMethod_ends hlen, ?_⟩
  · refine (findHdrEnd_ends hfuel buf).mono ?_
    rintro _ _ ⟨rfl, rfl⟩
    exact ⟨he, rfl⟩
  · intro cmd hcmd
    refine Ends.bind (parseUrl_ends (by omega) he hcmd) ?_
    rintro _ _ ⟨i, rfl, hi, rfl⟩
    have hbounds := (findFrom_eq_some.mp hi).1
    refine Ends.bind (parseLength_ends (by omega) (by rw [List.length_set]; omega)) ?_
    rintro _ _ ⟨rfl, rfl⟩
    refine Ends.pure ⟨i, rfl, rfl, hi, hbounds.2, ?_⟩
    rw [byteAt_set 0 (by omega), if_pos rfl]

/-- A `Content-Length` line without a number, behind a request line without a version. -/
def bareRequest : Bytes := ascii "GET /\r\nContent-Length:\r\n\r\nbody"

theorem parser_inside_bare :
    (hdrEnd bareRequest 30 = some 26 ∧ findCmd bareRequest 30 = some ⟨3, ascii "GET", .get⟩)
    ∧ Ends (fun a => a.index < 26) (parseHeaders 31 26 ⟨3, ascii "GET", .get⟩) bareRequest
        fun r buf' => ∃ i, r = some (i, contentLength u32Digits buf' 26)
          ∧ buf' = bareRequest.set i 0 ∧ urlEnd bareRequest 4 26 = some i
          ∧ i < 26 ∧ byteAt buf' i = 0 := by
  have hlen : 30 ≤ bareRequest.length := by decide +kernel
  have he : hdrEnd bareRequest 30 = some 26 := by decide +kernel
  have hcmd : findCmd bareRequest 30 = some ⟨3, ascii "GET", .get⟩ := by decide +kernel
  exact ⟨⟨he, hcmd⟩, (parser_inside hlen he (Nat.lt_succ_self 30)).2.2 _ hcmd⟩

end UniNet.Http
