import Mathlib.Data.List.Basic
import UniNet.Infra.Serial

/-!
# The receive window

Segments of a connection come in any order, more than once and cut in any way. What
`lTCPWindowRxCheck` makes of them: a segment at the expected number is passed on, one ahead of it
is stored if it fits and remembered in a list, and when a gap closes, the segments behind it are
taken from the list.

The code compares 32 bit numbers. The results here are about positions in the stream of the peer,
of less than `2 ^ 31` bytes; a segment of the list is then `At` one position.

* `popFollowing_spec`, `sackEnd_spec` — the two loops along adjoining segments
* `rxCheck_spec` — the three outcomes, in terms of positions
* `rxCheck_first` — which segment is the first one that is taken over
-/

namespace UniNet.Tcp

open Infra

/-! ## The code -/

/-- `xSequenceLessThan`: the highest bit of the difference is clear. -/
def sequenceLessThan (a b : Nat) : Bool := u32Sub b (u32 (a + 1)) < 2 ^ 31

/-- `xSequenceGreaterThanOrEqual`. -/
def sequenceGreaterThanOrEqual (a b : Nat) : Bool := u32Sub a b < 2 ^ 31

/-- `TCPSegment_t` in the list `xRxSegments`. -/
structure RxSegment where
  sequenceNumber : Nat
  dataLength : Nat
  deriving DecidableEq

/-- The receiving half of `TCPWindow_t`. -/
structure RxWindow where
  /-- `rx.ulCurrentSequenceNumber` -/
  current : Nat
  segments : List RxSegment
  userDataLength : Nat
  /-- `ulOptionsData`: the two ends of a selective acknowledgement, if there is one -/
  sack : Option (Nat × Nat)
  deriving DecidableEq

/-- `xTCPWindowRxFind`. -/
def rxFind (segs : List RxSegment) (seq : Nat) : Option RxSegment :=
  segs.find? fun seg => seg.sequenceNumber = seq

/-- The segment begins in a range. -/
def RxSegment.begins (seg : RxSegment) (seq len : Nat) : Bool :=
  sequenceGreaterThanOrEqual seg.sequenceNumber seq
    && sequenceLessThan seg.sequenceNumber (u32 (seq + len))

/-- The loop body of `xTCPWindowRxConfirm`. -/
def confirmNext (seq len : Nat) (best : Option RxSegment) (seg : RxSegment) : Option RxSegment :=
  if seg.begins seq len then
    match best with
    | none => some seg
    | some found =>
      if sequenceLessThan seg.sequenceNumber found.sequenceNumber then some seg else best
  else best

/-- `xTCPWindowRxConfirm`: of the segments that begin in a range, the first one. -/
def rxConfirm (segs : List RxSegment) (seq len : Nat) : Option RxSegment :=
  segs.foldl (confirmNext seq len) none

/-- The `do` loop of `prvTCPWindowRx_ExpectedRX`, for so many rounds. -/
def freeConfirmed (seq len : Nat) : Nat → List RxSegment → List RxSegment
  | 0, segs => segs
  | k + 1, segs =>
    match rxConfirm segs seq len with
    | some seg => freeConfirmed seq len k (segs.erase seg)
    | none => segs

/-- The `for` loop of `prvTCPWindowRx_ExpectedRX`, for so many rounds. -/
def popFollowing : Nat → Nat → List RxSegment → Nat × List RxSegment
  | 0, seq, segs => (seq, segs)
  | k + 1, seq, segs =>
    match rxFind segs seq with
    | some seg => popFollowing k (u32 (seq + seg.dataLength)) (segs.erase seg)
    | none => (seq, segs)

/-- The `for` loop of `prvTCPWindowRx_UnexpectedRX`, for so many rounds. It removes nothing. -/
def sackEnd (segs : List RxSegment) : Nat → Nat → Option Nat
  | 0, _ => none
  | k + 1, seq =>
    match rxFind segs seq with
    | some seg => sackEnd segs k (u32 (seq + seg.dataLength))
    | none => some seq

namespace RxWindow

/-- `prvTCPWindowRx_ExpectedRX`. Every round of its loops frees a segment. -/
def expectedRx (len : Nat) (w : RxWindow) : RxWindow :=
  let saved := u32 (w.current + len)
  if w.segments = [] then { w with current := saved }
  else
    let segs := freeConfirmed w.current len w.segments.length w.segments
    let r := popFollowing segs.length saved segs
    { w with
      current := r.1
      segments := r.2
      userDataLength := if saved ≠ r.1 then u32Sub r.1 saved else w.userDataLength }

/--
`prvTCPWindowRx_UnexpectedRX`, with what it returns. `alloc`: there is a descriptor for the
segment. The loop has no end if it goes on for longer than there are sequence numbers.
-/
def unexpectedRx (alloc : Bool) (seq len : Nat) (w : RxWindow) : Option (RxWindow × Int) :=
  match sackEnd w.segments (2 ^ 32) (u32 (seq + len)) with
  | none => none
  | some last =>
    let w := { w with sack := some (seq, last) }
    match rxFind w.segments seq with
    | some _ => some (w, -1)
    | none =>
      if alloc then
        some ({ w with segments := w.segments ++ [⟨seq, len⟩] }, i32 (u32Sub seq w.current))
      else some ({ w with sack := none }, -1)

end RxWindow

/-- What `lTCPWindowRxCheck` returns, `*pulSkipCount` and the window afterwards. -/
structure Checked where
  window : RxWindow
  offset : Int
  skip : Nat
  deriving DecidableEq

/-- `lTCPWindowRxCheck`. -/
def rxCheck (alloc : Bool) (seq len space : Nat) (w : RxWindow) : Option Checked :=
  let lastDistance := i32 (u32Sub (u32 (seq + len)) w.current)
  let startDistance := i32 (u32Sub seq w.current)
  let cut : Bool := startDistance < 0 && 0 < lastDistance
  let skip := if cut then u32OfInt (-startDistance) else 0
  let rxSeq := if cut then u32 (seq + skip) else seq
  let rxLen := if cut then u32 (len + u32OfInt startDistance) else len
  let w := { w with sack := none, userDataLength := 0 }
  if w.current = rxSeq then
    if space < rxLen then some ⟨w, -1, skip⟩ else some ⟨w.expectedRx rxLen, 0, skip⟩
  -- a keep-alive message
  else if w.current = u32 (rxSeq + 1) then some ⟨w, -1, skip⟩
  else if lastDistance ≤ 0 then some ⟨w, -1, skip⟩
  else if i32 space < lastDistance then some ⟨w, -1, skip⟩
  else (w.unexpectedRx alloc rxSeq rxLen).map fun r => ⟨r.1, r.2, skip⟩

/-! ## Positions -/

/-- The segment begins at the position `p`, and ends within the stream. -/
structure RxSegment.At (first : Nat) (seg : RxSegment) (p : Nat) : Prop where
  number : seg.sequenceNumber = serial first p
  pos : 0 < seg.dataLength
  fits : p + seg.dataLength < 2 ^ 31

/-- Every segment has its position. -/
def Placed (first : Nat) (segs : List RxSegment) : Prop := ∀ seg ∈ segs, ∃ p, seg.At first p

/-- Everything from `x` up to `y` is in segments that begin there. -/
def Covered (first : Nat) (segs : List RxSegment) (x y : Nat) : Prop :=
  ∀ i, x ≤ i → i < y → ∃ seg ∈ segs, ∃ p, seg.At first p ∧ x ≤ p ∧ p ≤ i ∧ i < p + seg.dataLength

section

variable {first : Nat} {segs : List RxSegment}

theorem RxSegment.At.number_iff {seg : RxSegment} {p x : Nat} (h : seg.At first p)
    (hx : x < 2 ^ 31) : seg.sequenceNumber = serial first x ↔ p = x := by
  have hfits := h.fits
  rw [h.number]
  exact serial_inj (by omega) (by omega)

theorem Placed.subset {segs' : List RxSegment} (h : Placed first segs) (hs : segs' ⊆ segs) :
    Placed first segs' := fun seg hseg => h seg (hs hseg)

theorem rxFind_some {seg : RxSegment} {x : Nat} (h : Placed first segs) (hx : x < 2 ^ 31)
    (hfind : rxFind segs (serial first x) = some seg) : seg ∈ segs ∧ seg.At first x := by
  have hmem := List.mem_of_find?_eq_some hfind
  have hnumber : seg.sequenceNumber = serial first x := by
    simpa using List.find?_some hfind
  obtain ⟨p, hp⟩ := h seg hmem
  obtain rfl := (hp.number_iff hx).mp hnumber
  exact ⟨hmem, hp⟩

theorem rxFind_none {x : Nat} (hfind : rxFind segs (serial first x) = none) :
    ∀ seg ∈ segs, ¬ seg.At first x := by
  intro seg hseg hat
  have hne := List.find?_eq_none.mp hfind seg hseg
  exact hne (decide_eq_true hat.number)

/-- One more segment in front of what is covered. -/
theorem Covered.cons {segs' : List RxSegment} {seg : RxSegment} {x y : Nat} (hseg : seg ∈ segs)
    (hat : seg.At first x) (hs : segs' ⊆ segs) (h : Covered first segs' (x + seg.dataLength) y) :
    Covered first segs x y := by
  intro i hx hy
  by_cases hi : i < x + seg.dataLength
  · exact ⟨seg, hseg, x, hat, Nat.le_refl x, hx, hi⟩
  · obtain ⟨seg', hmem, p, hp, hle, hpi, hlt⟩ := h i (by omega) hy
    exact ⟨seg', hs hmem, p, hp, by omega, hpi, hlt⟩

/-- **The loop that takes segments out of the list** stops where none begins. -/
theorem popFollowing_spec {k x : Nat} (h : Placed first segs) (hx : x < 2 ^ 31)
    (hk : segs.length ≤ k) : ∃ y, x ≤ y ∧ y < 2 ^ 31 ∧
      (popFollowing k (serial first x) segs).1 = serial first y ∧
      (popFollowing k (serial first x) segs).2 ⊆ segs ∧ Covered first segs x y ∧
      ∀ seg ∈ (popFollowing k (serial first x) segs).2, ¬ seg.At first y := by
  have hstay : ∀ i, x ≤ i → i < x → ∃ seg ∈ segs, ∃ p, seg.At first p ∧ x ≤ p ∧ p ≤ i ∧
      i < p + seg.dataLength := fun i _ _ => by omega
  induction k generalizing x segs with
  | zero =>
    obtain rfl := List.length_eq_zero_iff.mp (Nat.le_zero.mp hk)
    exact ⟨x, Nat.le_refl x, hx, rfl, List.Subset.refl _, hstay, List.forall_mem_nil _⟩
  | succ k ih =>
    unfold popFollowing
    cases hfind : rxFind segs (serial first x) with
    | none =>
      exact ⟨x, Nat.le_refl x, hx, rfl, List.Subset.refl _, hstay, rxFind_none hfind⟩
    | some seg =>
      obtain ⟨hmem, hat⟩ := rxFind_some h hx hfind
      have hsub : segs.erase seg ⊆ segs := List.erase_subset
      have hlen : (segs.erase seg).length ≤ k := by
        rw [List.length_erase_of_mem hmem]
        omega
      obtain ⟨y, hle, hy, hnum, hrest, hcover, hnone⟩ :=
        ih (h.subset hsub) hat.fits hlen fun i _ _ => by omega
      simp only [u32_serial_add]
      exact ⟨y, by omega, hy, hnum, List.Subset.trans hrest hsub, .cons hmem hat hsub hcover, hnone⟩

/-- **The loop along the segments ends**, because it cannot leave the stream. -/
theorem sackEnd_spec {k x : Nat} (h : Placed first segs) (hx : x < 2 ^ 31) (hk : 2 ^ 31 ≤ x + k) :
    ∃ y, x ≤ y ∧ y < 2 ^ 31 ∧ sackEnd segs k (serial first x) = some (serial first y) ∧
      Covered first segs x y := by
  induction k generalizing x with
  | zero => omega
  | succ k ih =>
    unfold sackEnd
    cases hfind : rxFind segs (serial first x) with
    | none => exact ⟨x, Nat.le_refl x, hx, rfl, fun i _ _ => by omega⟩
    | some seg =>
      obtain ⟨hmem, hat⟩ := rxFind_some h hx hfind
      have hpos := hat.pos
      obtain ⟨y, hle, hy, hend, hcover⟩ := ih hat.fits (by omega)
      simp only [u32_serial_add]
      exact ⟨y, by omega, hy, hend, .cons hmem hat (List.Subset.refl _) hcover⟩

theorem confirmNext_cases (seq len : Nat) (best : Option RxSegment) (seg : RxSegment) :
    confirmNext seq len best seg = some seg ∨
      confirmNext seq len best seg = best ∧ (best = none → seg.begins seq len = false) := by
  unfold confirmNext
  split
  · split
    · exact Or.inl rfl
    · split
      · exact Or.inl rfl
      · exact Or.inr ⟨rfl, fun h => by cases h⟩
  · next h => exact Or.inr ⟨rfl, fun _ => eq_false_of_ne_true h⟩

/-- What is confirmed is in the list, and if nothing is, nothing begins in the range. -/
theorem foldl_confirmNext (seq len : Nat) (best : Option RxSegment) :
    (∀ seg, segs.foldl (confirmNext seq len) best = some seg → best = some seg ∨ seg ∈ segs) ∧
      (segs.foldl (confirmNext seq len) best = none →
        best = none ∧ ∀ seg ∈ segs, seg.begins seq len = false) := by
  induction segs generalizing best with
  | nil => exact ⟨fun seg h => Or.inl h, fun h => ⟨h, List.forall_mem_nil _⟩⟩
  | cons a segs ih =>
    obtain ⟨hsome, hnone⟩ := ih (confirmNext seq len best a)
    rcases confirmNext_cases seq len best a with hnext | ⟨hnext, hbegins⟩
    · rw [List.foldl_cons]
      refine ⟨fun seg h => ?_, fun h => ?_⟩
      · rcases hsome seg h with heq | hmem
        · rw [hnext] at heq
          cases heq
          exact Or.inr (List.mem_cons_self ..)
        · exact Or.inr (List.mem_cons_of_mem _ hmem)
      · rw [(hnone h).1] at hnext
        cases hnext
    · rw [List.foldl_cons]
      refine ⟨fun seg h => ?_, fun h => ?_⟩
      · rcases hsome seg h with heq | hmem
        · exact Or.inl (hnext ▸ heq)
        · exact Or.inr (List.mem_cons_of_mem _ hmem)
      · obtain ⟨hbest, hall⟩ := hnone h
        rw [hnext] at hbest
        exact ⟨hbest, List.forall_mem_cons.mpr ⟨hbegins hbest, hall⟩⟩

/-- **The loop that frees segments** leaves none that begins in the range. -/
theorem freeConfirmed_spec (seq len : Nat) {k : Nat} (hk : segs.length ≤ k) :
    freeConfirmed seq len k segs ⊆ segs ∧
      ∀ seg ∈ freeConfirmed seq len k segs, seg.begins seq len = false := by
  induction k generalizing segs with
  | zero =>
    obtain rfl := List.length_eq_zero_iff.mp (Nat.le_zero.mp hk)
    exact ⟨List.Subset.refl _, List.forall_mem_nil _⟩
  | succ k ih =>
    unfold freeConfirmed
    obtain ⟨hsome, hnone⟩ := @foldl_confirmNext segs seq len none
    cases hfound : rxConfirm segs seq len with
    | none => exact ⟨List.Subset.refl _, (hnone hfound).2⟩
    | some seg =>
      have hmem : seg ∈ segs := (hsome seg hfound).resolve_left fun h => by cases h
      have hlen : (segs.erase seg).length ≤ k := by
        rw [List.length_erase_of_mem hmem]
        omega
      exact ⟨List.Subset.trans (ih hlen).1 List.erase_subset, (ih hlen).2⟩

end

/-! ## A segment is checked -/

/--
The segment was expected: the window moves behind it, and behind the segments that adjoin. No
segment of the list begins in what came, or where the window is now.
-/
structure Advanced (first cur len u : Nat) (w w' : RxWindow) : Prop where
  current : w'.current = serial first (cur + len + u)
  fits : cur + len + u < 2 ^ 31
  userDataLength : w'.userDataLength = u
  segments : w'.segments ⊆ w.segments
  covered : Covered first w.segments (cur + len) (cur + len + u)
  behind : ∀ seg ∈ w'.segments, ∀ p, seg.At first p → p < cur ∨ cur + len ≤ p
  gap : ∀ seg ∈ w'.segments, ¬ seg.At first (cur + len + u)

/-- In terms of positions. -/
theorem RxSegment.begins_iff {first cur len p : Nat} {seg : RxSegment} (h : seg.At first p)
    (hlen : cur + len < 2 ^ 31) :
    seg.begins (serial first cur) len = true ↔ cur ≤ p ∧ p < cur + len := by
  have hpos := h.pos
  have hfits := h.fits
  unfold begins sequenceGreaterThanOrEqual sequenceLessThan
  rw [h.number, u32_serial_add, u32_serial_add, Bool.and_eq_true, decide_eq_true_iff,
    decide_eq_true_iff, u32Sub_serial_lt_iff (by omega) (by omega),
    u32Sub_serial_lt_iff (by omega) (by omega)]
  rfl

namespace RxWindow

variable {first cur : Nat} {w : RxWindow}

/-- **`prvTCPWindowRx_ExpectedRX`.** -/
theorem expectedRx_spec (len : Nat) (hcur : w.current = serial first cur)
    (hw : Placed first w.segments) (hzero : w.userDataLength = 0) (hlen : cur + len < 2 ^ 31) :
    ∃ u, Advanced first cur len u w (w.expectedRx len) := by
  unfold expectedRx
  dsimp only
  rw [hcur, u32_serial_add]
  split
  · next hnil =>
    refine ⟨0, rfl, hlen, hzero, List.Subset.refl _, fun i _ _ => by omega, ?_, ?_⟩
    · rw [hnil]
      exact List.forall_mem_nil _
    · rw [hnil]
      exact List.forall_mem_nil _
  · obtain ⟨hsub, hfree⟩ := freeConfirmed_spec (serial first cur) len
      (Nat.le_refl w.segments.length)
    obtain ⟨y, hle, hy, hnum, hrest, hcover, hnone⟩ :=
      popFollowing_spec (hw.subset hsub) hlen (Nat.le_refl _)
    obtain ⟨u, rfl⟩ := Nat.exists_eq_add_of_le hle
    refine ⟨u, hnum, hy, ?_, List.Subset.trans hrest hsub, ?_, ?_, hnone⟩
    · show (if _ ≠ _ then u32Sub _ _ else w.userDataLength) = u
      rw [hnum, hzero, u32Sub_serial (Nat.le_add_right _ u) (by omega), Nat.add_sub_cancel_left]
      split
      · rfl
      · next heq =>
        rw [not_not, serial_inj (by omega) (by omega)] at heq
        omega
    · intro i hx hi
      obtain ⟨seg, hseg, p, hp⟩ := hcover i hx hi
      exact ⟨seg, hsub hseg, p, hp⟩
    · intro seg hseg p hp
      have hno := hfree seg (hrest hseg)
      rw [← Bool.not_eq_true, RxSegment.begins_iff hp hlen] at hno
      omega

/-- **`prvTCPWindowRx_UnexpectedRX`**: the segment is remembered, if none begins there yet. -/
theorem unexpectedRx_spec {x len : Nat} (alloc : Bool) (hcur : w.current = serial first cur)
    (hw : Placed first w.segments) (hx : cur < x) (hpos : 0 < len) (hlen : x + len < 2 ^ 31) :
    ∃ w' offset, w.unexpectedRx alloc (serial first x) len = some (w', offset) ∧
      w'.current = w.current ∧ w'.userDataLength = w.userDataLength ∧
      (offset = -1 ∧ w'.segments = w.segments ∨
        offset = ((x - cur : Nat) : Int) ∧
          w'.segments = w.segments ++ [⟨serial first x, len⟩]) := by
  unfold unexpectedRx
  rw [u32_serial_add]
  obtain ⟨y, -, -, hend, -⟩ := sackEnd_spec (k := 2 ^ 32) hw hlen (by omega)
  rw [hend]
  dsimp only
  split
  · exact ⟨_, _, rfl, rfl, rfl, Or.inl ⟨rfl, rfl⟩⟩
  · split
    · refine ⟨_, _, rfl, rfl, rfl, Or.inr ⟨?_, rfl⟩⟩
      rw [hcur, i32_u32Sub_serial (by omega) (by omega), Int.ofNat_sub (by omega)]
    · exact ⟨_, _, rfl, rfl, rfl, Or.inl ⟨rfl, rfl⟩⟩

end RxWindow

/-- The three outcomes for the segment from `x` on, when `cur` is expected. -/
inductive Outcome (first cur x len space : Nat) (w : RxWindow) (c : Checked) : Prop
  | refused (hoff : c.offset = -1) (hcur : c.window.current = w.current)
      (hsegs : c.window.segments = w.segments) (hzero : c.window.userDataLength = 0)
  | inOrder (hoff : c.offset = 0) (hle : x ≤ cur) (hlt : cur < x + len)
      (hskip : c.skip = cur - x) (hspace : x + len - cur ≤ space)
      (hmoved : ∃ u, Advanced first cur (x + len - cur) u w c.window)
  | ahead (hoff : c.offset = ((x - cur : Nat) : Int)) (hlt : cur < x) (hskip : c.skip = 0)
      (hspace : x + len - cur ≤ space) (hcur : c.window.current = w.current)
      (hsegs : c.window.segments = w.segments ++ [⟨serial first x, len⟩])
      (hzero : c.window.userDataLength = 0)

/-- **What `lTCPWindowRxCheck` makes of a segment.** -/
theorem rxCheck_spec {first cur x len space : Nat} {w : RxWindow} (alloc : Bool)
    (hcur : w.current = serial first cur) (hw : Placed first w.segments) (hc : cur < 2 ^ 31)
    (hpos : 0 < len) (hlen : x + len < 2 ^ 31) (hspace : space < 2 ^ 31) :
    ∃ c, rxCheck alloc (serial first x) len space w = some c ∧
      Outcome first cur x len space w c := by
  have hlast : i32 (u32Sub (serial first (x + len)) (serial first cur))
      = ((x + len : Nat) : Int) - cur := i32_u32Sub_serial (by omega) (by omega)
  have hstart : i32 (u32Sub (serial first x) (serial first cur)) = (x : Int) - cur :=
    i32_u32Sub_serial (by omega) (by omega)
  rcases w with ⟨current, segs, user, sack⟩
  obtain rfl : current = serial first cur := hcur
  unfold rxCheck
  dsimp only
  rw [u32_serial_add, hlast, hstart, i32_of_lt hspace]
  by_cases hcut : x < cur ∧ cur < x + len
  · -- it begins too early: the front part is skipped
    have hcond : (decide ((x : Int) - cur < 0) && decide (0 < ((x + len : Nat) : Int) - cur))
        = true := by
      rw [Bool.and_eq_true, decide_eq_true_iff, decide_eq_true_iff]
      omega
    have hskip : u32OfInt (-((x : Int) - cur)) = cur - x := by
      rw [u32OfInt_of_nonneg (by omega) (by omega)]
      omega
    have hrest : u32 (len + u32OfInt ((x : Int) - cur)) = x + len - cur := by
      unfold u32 u32OfInt
      omega
    rw [hcond]
    simp only [if_true, hskip, hrest, u32_serial_add, show x + (cur - x) = cur by omega]
    split
    · exact ⟨_, rfl, .refused rfl rfl rfl rfl⟩
    · next hfit =>
      obtain ⟨u, hmoved⟩ := RxWindow.expectedRx_spec (x + len - cur)
        (w := ⟨serial first cur, segs, 0, none⟩) rfl hw rfl (by omega)
      exact ⟨_, rfl, .inOrder rfl (by omega) (by omega) rfl (by omega)
        ⟨u, hmoved.current, hmoved.fits, hmoved.userDataLength, hmoved.segments, hmoved.covered,
          hmoved.behind, hmoved.gap⟩⟩
  · have hcond : (decide ((x : Int) - cur < 0) && decide (0 < ((x + len : Nat) : Int) - cur))
        = false := by
      rw [Bool.and_eq_false_iff, decide_eq_false_iff_not, decide_eq_false_iff_not]
      omega
    rw [hcond]
    simp only [Bool.false_eq_true, if_false, u32_serial_add]
    have hsame : serial first cur = serial first x ↔ cur = x :=
      serial_inj (by omega) (by omega)
    split
    · next heq =>
      obtain rfl := hsame.mp heq
      split
      · exact ⟨_, rfl, .refused rfl rfl rfl rfl⟩
      · next hfit =>
        obtain ⟨u, hmoved⟩ := RxWindow.expectedRx_spec len
          (w := ⟨serial first cur, segs, 0, none⟩) rfl hw rfl hlen
        refine ⟨_, rfl, .inOrder rfl (Nat.le_refl cur) (by omega) (Nat.sub_self cur).symm
          (by omega) ⟨u, ?_⟩⟩
        rw [Nat.add_sub_cancel_left]
        exact ⟨hmoved.current, hmoved.fits, hmoved.userDataLength, hmoved.segments,
          hmoved.covered, hmoved.behind, hmoved.gap⟩
    · next hne =>
      rw [hsame] at hne
      split
      · exact ⟨_, rfl, .refused rfl rfl rfl rfl⟩
      · split
        · exact ⟨_, rfl, .refused rfl rfl rfl rfl⟩
        · split
          · exact ⟨_, rfl, .refused rfl rfl rfl rfl⟩
          · obtain ⟨w', offset, hrun, hcur', huser, hres⟩ := RxWindow.unexpectedRx_spec
              (w := ⟨serial first cur, segs, 0, none⟩) alloc rfl hw (by omega) hpos hlen
            rw [hrun]
            refine ⟨_, rfl, ?_⟩
            rcases hres with ⟨rfl, hsegs⟩ | ⟨rfl, hsegs⟩
            · exact .refused rfl hcur' hsegs huser
            · exact .ahead rfl (by omega) rfl (by omega) hcur' hsegs huser

/--
As long as nothing was stored, a segment is taken over if it fits into the space and, when it comes
ahead of the first byte, there is a descriptor for it.
-/
theorem rxCheck_first {first x len space : Nat} {w : RxWindow} (alloc : Bool)
    (hcur : w.current = serial first 0) (hnil : w.segments = []) (hpos : 0 < len)
    (hlen : x + len < 2 ^ 31) (hspace : space < 2 ^ 31) :
    ∃ c, rxCheck alloc (serial first x) len space w = some c ∧
      (0 ≤ c.offset ↔ x + len ≤ space ∧ (x = 0 ∨ alloc = true)) := by
  have hlast : i32 (u32Sub (serial first (x + len)) (serial first 0))
      = ((x + len : Nat) : Int) - (0 : Nat) := i32_u32Sub_serial (by omega) (by omega)
  have hstart : i32 (u32Sub (serial first x) (serial first 0)) = (x : Int) - (0 : Nat) :=
    i32_u32Sub_serial (by omega) (by omega)
  have hcut : (decide ((x : Int) - (0 : Nat) < 0)
      && decide (0 < ((x + len : Nat) : Int) - (0 : Nat))) = false := by
    rw [Bool.and_eq_false_iff, decide_eq_false_iff_not]
    exact Or.inl (by omega)
  rcases w with ⟨current, segs, user, sack⟩
  obtain rfl : current = serial first 0 := hcur
  obtain rfl : segs = [] := hnil
  unfold rxCheck
  dsimp only
  rw [u32_serial_add, hlast, hstart, i32_of_lt hspace, hcut]
  simp only [Bool.false_eq_true, if_false, u32_serial_add]
  have hno : ¬ (0 : Int) ≤ -1 := by decide
  rcases Nat.eq_zero_or_pos x with rfl | hx
  · rw [if_pos rfl]
    split
    · exact ⟨_, rfl, iff_of_false hno (by omega)⟩
    · exact ⟨_, rfl, iff_of_true (Int.le_refl 0) (by omega)⟩
  · have hne : ¬ serial first 0 = serial first x := by
      rw [serial_inj (by omega) (by omega)]
      omega
    have hkeep : ¬ serial first 0 = serial first (x + 1) := by
      rw [serial_inj (by omega) (by omega)]
      omega
    rw [if_neg hne, if_neg hkeep, if_neg (by omega)]
    split
    · exact ⟨_, rfl, iff_of_false hno (by omega)⟩
    · next hfit =>
      obtain ⟨y, -, -, hy, -⟩ := sackEnd_spec (k := 2 ^ 32)
        (show Placed first [] from List.forall_mem_nil _) hlen (by omega)
      simp only [RxWindow.unexpectedRx, u32_serial_add, hy, rxFind, List.find?_nil, hstart]
      cases alloc with
      | true =>
        refine ⟨_, rfl, iff_of_true ?_ ⟨by omega, Or.inr rfl⟩⟩
        show (0 : Int) ≤ (x : Int) - (0 : Nat)
        omega
      | false =>
        refine ⟨_, rfl, iff_of_false hno ?_⟩
        rintro ⟨-, hzero | halloc⟩
        · omega
        · cases halloc

end UniNet.Tcp
