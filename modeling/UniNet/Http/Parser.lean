import Mathlib.Data.List.GetD
import Mathlib.Data.List.Find
import UniNet.Infra.Text
import UniNet.Infra.Word
import UniNet.Http.Common

/-!
# The request parser

The loops of `_uni_net_http_server_client_work` that look at the receive buffer: the end of
the header block, the method, the URL and the `Content-Length` line. Each is a search over
buffer indices with the bound the source has.

Two facts carry everything that is said about requests later.

* **Stability.** The end of the header block does not move when more bytes arrive behind it
  (`hdrEnd_append`), and it is not found before it is there (`IsBlock.hdrEnd_part`).
* **Locality.** What the loops read of a complete header block is the block itself
  (`findCmd_block`, `urlEnd_take`, `contentLength_take`): neither the body behind it nor
  stale bytes of the buffer matter.
-/

namespace UniNet.Http

open Infra

/-- CR LF at index `i`. -/
def crlfAt (buf : Bytes) (i : Nat) : Bool := byteAt buf i == 13 && byteAt buf (i + 1) == 10

/-- `hdr_end`, the index behind the first CR LF CR LF, with `none` for -1. -/
def hdrEnd (buf : Bytes) (rxLen : Nat) : Option Nat :=
  (findFrom (fun i => crlfAt buf i && crlfAt buf (i + 2)) 0 (rxLen - 3)).map (· + 4)

/-! ## Method -/

/-- `uni_net_http_command_t`. -/
structure HttpCommand where
  cmdLen : Nat
  cmdName : Bytes
  cmdType : CommandType
  deriving DecidableEq

/-- `g_UNI_NET_http_cmd`. -/
def httpCmd : List HttpCommand :=
  [ ⟨3, ascii "GET", .get⟩,
    ⟨4, ascii "HEAD", .head⟩,
    ⟨4, ascii "POST", .post⟩,
    ⟨3, ascii "PUT", .put⟩,
    ⟨6, ascii "DELETE", .delete⟩,
    ⟨5, ascii "TRACE", .trace⟩,
    ⟨7, ascii "OPTIONS", .options⟩,
    ⟨7, ascii "CONNECT", .connect⟩,
    ⟨5, ascii "PATCH", .patch⟩,
    ⟨4, ascii "UNKN", .unknown⟩ ]

/-- `memcmp(a, b, n) == 0`. -/
def memcmpEq (a b : Bytes) (n : Nat) : Bool := a.take n == b.take n

/-- The method loop. The last row of the table is never compared. -/
def findCmd (buf : Bytes) (rxLen : Nat) : Option HttpCommand :=
  (httpCmd.take (httpCmd.length - 1)).find? fun cmd =>
    decide (cmd.cmdLen ≤ rxLen) && memcmpEq cmd.cmdName buf cmd.cmdLen

/-! ## URL -/

def isUrlEnd (b : UInt8) : Bool := b == 13 || b == 10 || b == 32 || b == 9

/-- `url_end`, where the URL that starts at `url` gets its NUL; `none` when it reaches `hdr_end`. -/
def urlEnd (buf : Bytes) (url hdrEnd : Nat) : Option Nat :=
  findFrom (fun i => isUrlEnd (byteAt buf i)) url hdrEnd

/-! ## Content-Length -/

def clName : Bytes := ascii "Content-Length:"

/-- The case-insensitive comparison of the line at `p` with the field name. -/
def nameMatch (buf : Bytes) (p : Nat) : Bool :=
  (List.range clName.length).all fun i =>
    toLower (byteAt buf (p + i)) == toLower (byteAt clName i)

def isBlank (b : UInt8) : Bool := b == 32 || b == 9

/-- The first index from `i` on that is neither blank nor behind the line. -/
def skipBlanks (buf : Bytes) (i e : Nat) : Nat :=
  (findFrom (fun k => !isBlank (byteAt buf k)) i e).getD e

/-- The first index from `j` on without a digit. -/
def digitsEnd (buf : Bytes) (j e : Nat) : Nat :=
  (findFrom (fun k => !isDecDigit (byteAt buf k)) j e).getD e

/-- The digits at `j`, `none` when `any` stays false. -/
def digitRun (buf : Bytes) (j e : Nat) : Option Bytes :=
  if j < digitsEnd buf j e then some ((buf.drop j).take (digitsEnd buf j e - j)) else none

/-- The digit run of a `Content-Length` line `[p, e)`, when there is one. -/
def lineDigits (buf : Bytes) (p e : Nat) : Option Bytes :=
  if clName.length ≤ e - p ∧ nameMatch buf p = true then
    digitRun buf (skipBlanks buf (p + clName.length) e) e
  else none

/-- The digit loop, `val = val * 10U + digit` in `uint32_t`. -/
def u32Digits (ds : Bytes) : Nat := ds.foldl (fun val b => u32 (val * 10 + (b.toNat - 48))) 0

/-- The first index behind the request line. -/
def requestLineEnd (buf : Bytes) (hdrEnd : Nat) : Nat :=
  match findFrom (crlfAt buf) 0 (hdrEnd - 1) with
  | some i => i + 2
  | none => hdrEnd - 1

/-- `e`, the end of the line that starts at `p`. -/
def lineEnd (buf : Bytes) (p hdrEnd : Nat) : Nat :=
  (findFrom (crlfAt buf) p (hdrEnd - 1)).getD (hdrEnd - 1)

/--
The loop over the header lines. The last line with a digit run wins.

`value` is what the digit loop makes of the run; the code's is `u32Digits`. The fuel bounds
the number of lines, and `scanLines_fuel` shows that it never runs out.
-/
def scanLines (value : Bytes → Nat) (buf : Bytes) (hdrEnd : Nat) :
    Nat → Nat → Option Nat → Option Nat
  | 0, _, cl => cl
  | fuel + 1, p, cl =>
    if p + 1 < hdrEnd then
      if crlfAt buf p then cl
      else
        scanLines value buf hdrEnd fuel (lineEnd buf p hdrEnd + 2)
          (((lineDigits buf p (lineEnd buf p hdrEnd)).map value).or cl)
    else cl

/-- `content_length` when `cl_found`, else `none`. -/
def contentLength (value : Bytes → Nat) (buf : Bytes) (hdrEnd : Nat) : Option Nat :=
  scanLines value buf hdrEnd hdrEnd (requestLineEnd buf hdrEnd) none

/-! ## What a header block says -/

/-- A request as its header block gives it. -/
structure Request where
  cmdType : CommandType
  url : CString
  /-- what the scan leaves in `content_length`, `none` without `cl_found` -/
  length : Option Nat
  /-- the number on the `Content-Length` line -/
  declared : Option Nat
  deriving DecidableEq

/-- The request in a complete header block, `none` when it is answered with 400. -/
def requestOf (block : Bytes) : Option Request :=
  match findCmd block block.length with
  | none => none
  | some cmd =>
    match urlEnd block (cmd.cmdLen + 1) block.length with
    | none => none
    | some e =>
      let buf := block.set e 0
      some
        { cmdType := cmd.cmdType
          url := CString.ofBytes (buf.drop (cmd.cmdLen + 1))
          length := contentLength u32Digits buf block.length
          declared := contentLength decValue buf block.length }

/-- A complete header block: its first CR LF CR LF is its end. -/
def IsBlock (block : Bytes) : Prop := hdrEnd block block.length = some block.length

instance (block : Bytes) : Decidable (IsBlock block) :=
  inferInstanceAs (Decidable (_ = _))

/-! ## The end of the header block -/

section

variable {buf buf' : Bytes} {n e : Nat}

theorem crlfAt_congr {i : Nat} (h : ∀ j, j < n → byteAt buf j = byteAt buf' j) (hi : i + 1 < n) :
    crlfAt buf i = crlfAt buf' i := by
  unfold crlfAt
  rw [h i (by omega), h (i + 1) hi]

theorem hdrEnd_eq_some : hdrEnd buf n = some e ↔
    (4 ≤ e ∧ e ≤ n) ∧ (crlfAt buf (e - 4) = true ∧ crlfAt buf (e - 2) = true) ∧
      ∀ j, j + 4 < e → (crlfAt buf j && crlfAt buf (j + 2)) = false := by
  unfold hdrEnd
  rw [Option.map_eq_some_iff]
  constructor
  · rintro ⟨i, hi, rfl⟩
    obtain ⟨hb, hp, hmin⟩ := findFrom_eq_some.mp hi
    simp only [Bool.and_eq_true] at hp
    exact ⟨by omega, by simpa using hp, fun j hj => hmin j (by omega) (by omega)⟩
  · rintro ⟨hb, hp, hmin⟩
    refine ⟨e - 4, findFrom_eq_some.mpr ⟨by omega, ?_, fun j _ hj => hmin j (by omega)⟩, by omega⟩
    rw [show e - 4 + 2 = e - 2 by omega, hp.1, hp.2]
    rfl

theorem hdrEnd_le (h : hdrEnd buf n = some e) : e ≤ n := (hdrEnd_eq_some.mp h).1.2

theorem hdrEnd_congr (h : ∀ j, j < n → byteAt buf j = byteAt buf' j) :
    hdrEnd buf n = hdrEnd buf' n := by
  unfold hdrEnd
  rw [findFrom_congr]
  intro j _ hj
  rw [crlfAt_congr h (by omega), crlfAt_congr h (by omega)]

/-- The search looks at the received bytes only. -/
theorem hdrEnd_take (buf : Bytes) (n : Nat) : hdrEnd (buf.take n) n = hdrEnd buf n :=
  hdrEnd_congr fun _ hj => byteAt_take hj

/-- **More bytes behind a complete header block do not move its end.** -/
theorem hdrEnd_append {l m : Bytes} (h : hdrEnd l l.length = some e) :
    hdrEnd (l ++ m) (l ++ m).length = some e := by
  have hcongr : hdrEnd (l ++ m) l.length = some e := by
    rw [← h]
    exact hdrEnd_congr fun _ hj => byteAt_append_left hj
  rw [hdrEnd_eq_some] at hcongr ⊢
  refine ⟨?_, hcongr.2⟩
  have := hcongr.1
  simp only [List.length_append]
  omega

/-- What lies in front of the end is a complete header block. -/
theorem isBlock_take (hlen : n ≤ buf.length) (h : hdrEnd buf n = some e) :
    IsBlock (buf.take e) := by
  have he := hdrEnd_le h
  unfold IsBlock
  rw [List.length_take, Nat.min_eq_left (by omega), hdrEnd_take]
  rw [hdrEnd_eq_some] at h ⊢
  exact ⟨by omega, h.2⟩

/-- **The end of a block is found as soon as all of it is there, and not before.** -/
theorem IsBlock.hdrEnd_part {block rest l : Bytes} (hb : IsBlock block)
    (hl : l <+: block ++ rest) :
    hdrEnd l l.length = if block.length ≤ l.length then some block.length else none := by
  have hat : ∀ j, j < l.length → byteAt l j = byteAt (block ++ rest) j := by
    obtain ⟨t, ht⟩ := hl
    intro j hj
    rw [← ht, byteAt_append_left hj]
  rw [hdrEnd_congr hat]
  have hall : hdrEnd (block ++ rest) (block ++ rest).length = some block.length :=
    hdrEnd_append hb
  obtain ⟨hbounds, hfound⟩ := hdrEnd_eq_some.mp hall
  split
  · exact hdrEnd_eq_some.mpr ⟨by omega, hfound⟩
  · next hlt =>
    -- an end found in the part would be an earlier one in the whole
    cases he : hdrEnd (block ++ rest) l.length with
    | none => rfl
    | some e =>
      obtain ⟨hb', hp', -⟩ := hdrEnd_eq_some.mp he
      have hno := hfound.2 (e - 4) (by omega)
      rw [show e - 4 + 2 = e - 2 by omega, hp'.1, hp'.2] at hno
      cases hno

end

/-! ## Method and URL -/

section

variable {buf : Bytes} {n e : Nat} {cmd : HttpCommand}

theorem findCmd_mem (h : findCmd buf n = some cmd) : cmd ∈ httpCmd.take 9 :=
  List.mem_of_find?_eq_some h

/-- No method name has a CR in it, and each is as long as its row says. -/
theorem httpCmd_rows : ∀ cmd ∈ httpCmd.take 9,
    cmd.cmdName.length = cmd.cmdLen ∧ (13 : UInt8) ∉ cmd.cmdName := by decide

/-- A method that matches covers no CR. -/
theorem byteAt_ne_cr (hmem : cmd ∈ httpCmd.take 9)
    (hm : memcmpEq cmd.cmdName buf cmd.cmdLen = true) {i : Nat} (hi : i < cmd.cmdLen) :
    byteAt buf i ≠ 13 := by
  obtain ⟨hlen, hno⟩ := httpCmd_rows cmd hmem
  have hname : cmd.cmdName = buf.take cmd.cmdLen := by
    unfold memcmpEq at hm
    rw [beq_iff_eq, List.take_of_length_le (by omega)] at hm
    exact hm
  intro hcr
  refine hno ?_
  rw [← hcr, ← byteAt_take hi, ← hname, byteAt, List.getD_eq_getElem _ _ (by omega)]
  exact List.getElem_mem _

theorem crlfAt_eq_true {i : Nat} :
    crlfAt buf i = true ↔ byteAt buf i = 13 ∧ byteAt buf (i + 1) = 10 := by
  unfold crlfAt
  rw [Bool.and_eq_true, beq_iff_eq, beq_iff_eq]

/-- A method that matches ends in front of the blank line. -/
theorem cmdLen_le (he : hdrEnd buf n = some e)
    (hmem : cmd ∈ httpCmd.take 9) (hm : memcmpEq cmd.cmdName buf cmd.cmdLen = true) :
    cmd.cmdLen + 4 ≤ e := by
  obtain ⟨hb, hcr, -⟩ := hdrEnd_eq_some.mp he
  by_contra hlt
  exact byteAt_ne_cr hmem hm (show e - 4 < cmd.cmdLen by omega) (crlfAt_eq_true.mp hcr.1).1

/-- **The method is read off the header block.** -/
theorem findCmd_block (he : hdrEnd buf n = some e) :
    findCmd buf n = findCmd (buf.take e) e := by
  have hen := hdrEnd_le he
  unfold findCmd
  refine List.find?_congr fun cmd hmem => ?_
  rw [Bool.eq_iff_iff]
  simp only [Bool.and_eq_true, decide_eq_true_eq]
  constructor
  · rintro ⟨-, hm⟩
    have := cmdLen_le he hmem hm
    refine ⟨by omega, ?_⟩
    unfold memcmpEq at hm ⊢
    rw [List.take_take, Nat.min_eq_left (by omega)]
    exact hm
  · rintro ⟨hle, hm⟩
    refine ⟨by omega, ?_⟩
    unfold memcmpEq at hm ⊢
    rw [List.take_take, Nat.min_eq_left hle] at hm
    exact hm

theorem findCmd_cmdLen (he : hdrEnd buf n = some e) (h : findCmd buf n = some cmd) :
    cmd.cmdLen + 4 ≤ e := by
  have hm := List.find?_some h
  simp only [Bool.and_eq_true, decide_eq_true_eq] at hm
  exact cmdLen_le he (findCmd_mem h) hm.2

theorem urlEnd_take (buf : Bytes) (url e : Nat) : urlEnd (buf.take e) url e = urlEnd buf url e :=
  findFrom_congr fun j _ hj => by rw [byteAt_take hj]

/-- **A URL always ends inside the header block**, at the line feed of the blank line at last. -/
theorem urlEnd_isSome (he : hdrEnd buf n = some e) (h : findCmd buf n = some cmd) :
    ∃ i, urlEnd buf (cmd.cmdLen + 1) e = some i ∧ cmd.cmdLen + 1 ≤ i ∧ i < e := by
  have hle := findCmd_cmdLen he h
  obtain ⟨hb, hcr, -⟩ := hdrEnd_eq_some.mp he
  have hlf : byteAt buf (e - 1) = 10 := by
    rw [← (crlfAt_eq_true.mp hcr.2).2]
    congr 1
    omega
  obtain ⟨i, hi, -⟩ := findFrom_of_mem (p := fun i => isUrlEnd (byteAt buf i))
    (show cmd.cmdLen + 1 ≤ e - 1 by omega) (show e - 1 < e by omega) (by rw [hlf]; decide)
  have hbounds := (findFrom_eq_some.mp hi).1
  exact ⟨i, hi, hbounds.1, hbounds.2⟩

end

/-! ## The Content-Length scan -/

section

variable {value : Bytes → Nat} {buf buf' : Bytes} {e : Nat}

theorem lineEnd_bounds (buf : Bytes) {p : Nat} (h : p + 1 < e) :
    p ≤ lineEnd buf p e ∧ lineEnd buf p e < e := by
  unfold lineEnd
  cases hf : findFrom (crlfAt buf) p (e - 1) with
  | none => simp only [Option.getD_none]; omega
  | some i =>
    have := (findFrom_eq_some.mp hf).1
    simp only [Option.getD_some]
    omega

/-- **The fuel never runs out.** Each line moves `p` forward, so any two amounts of fuel that
cover the rest of the block give the same result. -/
theorem scanLines_fuel : ∀ (f g p : Nat) (cl : Option Nat), e ≤ p + f → e ≤ p + g →
    scanLines value buf e f p cl = scanLines value buf e g p cl
  | 0, 0, _, _, _, _ => rfl
  | 0, g + 1, p, cl, hf, _ => by
    simp only [scanLines, if_neg (show ¬ p + 1 < e by omega)]
  | f + 1, 0, p, cl, _, hg => by
    simp only [scanLines, if_neg (show ¬ p + 1 < e by omega)]
  | f + 1, g + 1, p, cl, hf, hg => by
    rw [scanLines, scanLines]
    split
    · next hp =>
      split
      · rfl
      · have := (lineEnd_bounds buf hp).1
        exact scanLines_fuel f g _ _ (by omega) (by omega)
    · rfl

theorem digitsEnd_le {j e' : Nat} : digitsEnd buf j e' ≤ e' := findFrom_getD_le

theorem digitRun_congr {j e' : Nat} (h : ∀ i, i < e → byteAt buf i = byteAt buf' i)
    (htake : buf.take e = buf'.take e) (he : e' ≤ e) :
    digitRun buf j e' = digitRun buf' j e' := by
  have hend : digitsEnd buf j e' = digitsEnd buf' j e' := by
    unfold digitsEnd
    rw [findFrom_congr fun i _ hi => by rw [h i (by omega)]]
  have hle : digitsEnd buf' j e' ≤ e := Nat.le_trans digitsEnd_le he
  unfold digitRun
  rw [hend, ← List.drop_take, ← List.drop_take, ← Nat.min_eq_left hle, ← List.take_take,
    ← List.take_take, htake]

theorem lineDigits_congr {p e' : Nat} (h : ∀ j, j < e → byteAt buf j = byteAt buf' j)
    (htake : buf.take e = buf'.take e) (he : e' ≤ e) :
    lineDigits buf p e' = lineDigits buf' p e' := by
  unfold lineDigits
  by_cases hle : clName.length ≤ e' - p
  · have hname : nameMatch buf p = nameMatch buf' p := by
      unfold nameMatch
      rw [Bool.eq_iff_iff, List.all_eq_true, List.all_eq_true]
      refine forall₂_congr fun i hi => ?_
      rw [List.mem_range] at hi
      rw [h (p + i) (by omega)]
    have hskip : skipBlanks buf (p + clName.length) e'
        = skipBlanks buf' (p + clName.length) e' := by
      unfold skipBlanks
      rw [findFrom_congr fun j _ hj => by rw [h j (by omega)]]
    rw [hname, hskip, digitRun_congr h htake he]
  · rw [if_neg fun hc => hle hc.1, if_neg fun hc => hle hc.1]

theorem scanLines_congr (h : ∀ j, j < e → byteAt buf j = byteAt buf' j)
    (htake : buf.take e = buf'.take e) : ∀ (f p : Nat) (cl : Option Nat),
    scanLines value buf e f p cl = scanLines value buf' e f p cl
  | 0, _, _ => rfl
  | f + 1, p, cl => by
    rw [scanLines, scanLines]
    split
    · next hp =>
      have hend : lineEnd buf p e = lineEnd buf' p e := by
        unfold lineEnd
        rw [findFrom_congr fun j _ hj => crlfAt_congr h (by omega)]
      have hle := (lineEnd_bounds buf' hp).2
      rw [crlfAt_congr h (by omega), hend, lineDigits_congr h htake (by omega)]
      split
      · rfl
      · exact scanLines_congr h htake f _ _
    · rfl

/-- **The scan reads the header block only.** -/
theorem contentLength_take (value : Bytes → Nat) (buf : Bytes) (e : Nat) :
    contentLength value (buf.take e) e = contentLength value buf e := by
  have h : ∀ j, j < e → byteAt (buf.take e) j = byteAt buf j := fun _ hj => byteAt_take hj
  unfold contentLength
  rw [scanLines_congr h (by rw [List.take_take, Nat.min_self])]
  congr 1
  unfold requestLineEnd
  rw [findFrom_congr fun j _ hj => crlfAt_congr h (by omega)]

theorem scanLines_map (g : Nat → Nat) : ∀ (f p : Nat) (cl : Option Nat),
    scanLines (fun ds => g (value ds)) buf e f p (cl.map g)
      = (scanLines value buf e f p cl).map g
  | 0, _, _ => rfl
  | f + 1, p, cl => by
    rw [scanLines, scanLines]
    split
    · split
      · rfl
      · rw [← scanLines_map g f]
        congr 1
        cases lineDigits buf p (lineEnd buf p e) <;> rfl
    · rfl

/-- The digit loop computes the number modulo `2 ^ 32`. -/
theorem u32Digits_eq (ds : Bytes) : u32Digits ds = u32 (decValue ds) := by
  have hgen : ∀ (ds : Bytes) (a : Nat),
      ds.foldl (fun val b => u32 (val * 10 + (b.toNat - 48))) (u32 a)
        = u32 (ds.foldl (fun val b => val * 10 + (b.toNat - 48)) a) := by
    intro ds
    induction ds with
    | nil => intro a; rfl
    | cons b ds ih =>
      intro a
      rw [List.foldl_cons, List.foldl_cons, ← ih]
      congr 1
      unfold u32
      omega
  exact hgen ds 0

/-- **`content_length` is the declared number modulo `2 ^ 32`.** -/
theorem contentLength_u32 (buf : Bytes) (e : Nat) :
    contentLength u32Digits buf e = (contentLength decValue buf e).map u32 := by
  unfold contentLength
  rw [← scanLines_map u32, show u32Digits = fun ds => u32 (decValue ds) from
    funext u32Digits_eq]
  rfl

end

/-- **Every complete block that begins with a method is a request.** -/
theorem requestOf_isSome {block : Bytes} (hb : IsBlock block) {cmd : HttpCommand}
    (h : findCmd block block.length = some cmd) :
    ∃ req, requestOf block = some req ∧ req.cmdType = cmd.cmdType := by
  obtain ⟨i, hi, -⟩ := urlEnd_isSome hb h
  unfold requestOf
  simp only [h, hi]
  exact ⟨_, rfl, rfl⟩

theorem requestOf_length {block : Bytes} {req : Request} (h : requestOf block = some req) :
    req.length = req.declared.map u32 := by
  unfold requestOf at h
  split at h
  · cases h
  · split at h
    · cases h
    · rw [← Option.some.inj h]
      exact contentLength_u32 _ _

end UniNet.Http
