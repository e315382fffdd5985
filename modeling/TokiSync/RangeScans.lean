import TokiSync.MachineWords
import Mathlib

/-!
# Range scans by the bytes of signed words

Big-endian bytes sort words by their unsigned reading: the words that are not
negative come first, ascending, then the negative ones, ascending. A scan that
skips some rows, stops at the first row past the end of a range and keeps at
most a number of rows is described for rows in this order. Rows, their times
and what a scan makes of a row are arbitrary.
-/

namespace TokiSync.RangeScans

open MachineWords

/-- Unsigned reading of a signed word. -/
def unsigned (word : Int64) : ℕ := word.toBitVec.toNat

/-- Unsigned readings sort the words that are not negative before the others. -/
theorem unsigned_le_iff {a b : Int64} :
    unsigned a≤unsigned b ↔ (0≤a ∧ b<0) ∨ ((0≤a ↔ 0≤b) ∧ a≤b) := by
  have hzero : (0 : Int64).toInt=0 := rfl
  have ha : a.toInt=a.toBitVec.toInt := rfl
  have hb : b.toInt=b.toBitVec.toInt := rfl
  rw [BitVec.toInt_eq_toNat_cond] at ha hb
  have halt := a.toBitVec.isLt
  have hblt := b.toBitVec.isLt
  simp only [unsigned,Int64.le_iff_toInt_le,Int64.lt_iff_toInt_lt,hzero,ha,hb]
  split_ifs <;> omega

/-- Bytes are compared as numbers. -/
theorem compare_byte (a b : UInt8) : compare a b=compare a.toNat b.toNat := by
  rcases lt_trichotomy a b with h | h | h
  · rw [compare_lt_iff_lt.mpr h]
    exact (Nat.compare_eq_lt.mpr (UInt8.lt_iff_toNat_lt.mp h)).symm
  · rw [h,compare_eq_iff_eq.mpr rfl,Nat.compare_eq_eq.mpr rfl]
  · rw [compare_gt_iff_gt.mpr h]
    exact (Nat.compare_eq_gt.mpr (UInt8.lt_iff_toNat_lt.mp h)).symm

/-- Strings of the same length are compared before what follows them. -/
theorem compare_append {xs ys : List UInt8} (h : xs.length=ys.length) (us vs : List UInt8) :
    compare (xs++us) (ys++vs)=(compare xs ys).then (compare us vs) := by
  induction xs generalizing ys with
  | nil =>
    rw [List.length_nil] at h
    rw [List.eq_nil_of_length_eq_zero h.symm]
    rfl
  | cons x xs ih =>
    cases ys with
    | nil => cases h
    | cons y ys =>
      have hcons : ∀ p q : List UInt8, compare (x::p) (y::q)=(compare x y).then (compare p q) :=
        fun p q => List.compareLex_cons_cons
      rw [List.cons_append,List.cons_append,hcons,hcons,ih (Nat.succ.inj h),Ordering.then_assoc]

/-- A number is compared by its higher digits, then by its lowest one. -/
theorem compare_div_mod (m n : ℕ) :
    compare m n=(compare (m/256) (n/256)).then (compare (m%256) (n%256)) := by
  rcases lt_trichotomy (m/256) (n/256) with h | h | h
  · rw [Nat.compare_eq_lt.mpr h,Nat.compare_eq_lt.mpr (by omega)]
    rfl
  · rw [Nat.compare_eq_eq.mpr h,Ordering.eq_then]
    rcases lt_trichotomy m n with hmn | hmn | hmn
    · rw [Nat.compare_eq_lt.mpr hmn,Nat.compare_eq_lt.mpr (by omega)]
    · rw [hmn,Nat.compare_eq_eq.mpr rfl,Nat.compare_eq_eq.mpr rfl]
    · rw [Nat.compare_eq_gt.mpr hmn,Nat.compare_eq_gt.mpr (by omega)]
  · rw [Nat.compare_eq_gt.mpr h,Nat.compare_eq_gt.mpr (by omega)]
    rfl

/-- Encodings of the same width are compared as the numbers they encode. -/
theorem compare_digits {width m n : ℕ} (hm : m<256^width) (hn : n<256^width) :
    compare (digits width m) (digits width n)=compare m n := by
  induction width generalizing m n with
  | zero =>
    rw [pow_zero,Nat.lt_one_iff] at hm hn
    rw [hm,hn]
    rfl
  | succ width ih =>
    rw [pow_succ] at hm hn
    have hbyte : ∀ k : ℕ, (UInt8.ofNat k).toNat=k%256 := fun k => UInt8.toNat_ofNat'
    have hsingle : compare [UInt8.ofNat m] [UInt8.ofNat n]=compare (m%256) (n%256) := by
      rw [←hbyte m,←hbyte n,←compare_byte]
      exact List.compareLex_cons_cons.trans Ordering.then_eq
    rw [digits,digits,compare_append (by rw [digits_length,digits_length]),
      ih (by omega) (by omega),hsingle,←compare_div_mod]

/-- Keys that start with encoded words are compared by the unsigned readings
of the words first. -/
theorem compare_toBeBytes_append (a b : Int64) (xs ys : List UInt8) :
    compare (toBeBytes a++xs) (toBeBytes b++ys)=
      (compare (unsigned a) (unsigned b)).then (compare xs ys) := by
  have ha : unsigned a<256^8 := a.toBitVec.isLt
  have hb : unsigned b<256^8 := b.toBitVec.isLt
  rw [compare_append (by rw [toBeBytes_length,toBeBytes_length])]
  exact congrArg (fun o : Ordering => o.then (compare xs ys)) (compare_digits ha hb)

section

variable {α β : Type}

/-- Scan rows in order: stop at the first row of one kind, pass over the rows
without an item, collect the items of the others and stop when the limit is
reached. -/
def scanLoop (stop : α → Bool) (item : α → Option β) (limit : ℕ) : List α → List β → List β
  | [],results => results
  | row::rows,results =>
    if stop row then results
    else match item row with
      | none => scanLoop stop item limit rows results
      | some b =>
        if (results++[b]).length≥limit then results++[b]
        else scanLoop stop item limit rows (results++[b])

/-- Items of the rows that a scan without limit reaches. -/
def scanned (stop : α → Bool) (item : α → Option β) (rows : List α) : List β :=
  (rows.takeWhile fun row => !stop row).filterMap item

/-- A scan keeps the first items up to the limit. -/
theorem scanLoop_eq (stop : α → Bool) (item : α → Option β) {limit : ℕ} {results : List β}
    (h : results.length<limit) (rows : List α) :
    scanLoop stop item limit rows results=(results++scanned stop item rows).take limit := by
  induction rows generalizing results with
  | nil =>
    rw [scanLoop,scanned,List.takeWhile_nil,List.filterMap_nil,List.append_nil,
      List.take_of_length_le h.le]
  | cons row rows ih =>
    rw [scanLoop]
    by_cases hstop : stop row=true
    · have hnil : scanned stop item (row::rows)=[] := by
        rw [scanned,List.takeWhile_cons_of_neg (by rw [hstop]; exact Bool.false_ne_true),
          List.filterMap_nil]
      rw [if_pos hstop,hnil,List.append_nil,List.take_of_length_le h.le]
    · have hgo : (!stop row)=true := by rw [Bool.not_eq_true] at hstop; rw [hstop]; rfl
      rw [if_neg hstop]
      cases hitem : item row with
      | none =>
        have htail : scanned stop item (row::rows)=scanned stop item rows := by
          rw [scanned,List.takeWhile_cons_of_pos (p:=fun row => !stop row) hgo,
            List.filterMap_cons_none hitem]
          rfl
        rw [htail]
        exact ih h
      | some b =>
        have hcons : scanned stop item (row::rows)=b::scanned stop item rows := by
          rw [scanned,List.takeWhile_cons_of_pos (p:=fun row => !stop row) hgo,
            List.filterMap_cons_some hitem]
          rfl
        have hassoc : results++b::scanned stop item rows=(results++[b])++scanned stop item rows := by
          rw [List.append_assoc,List.singleton_append]
        rw [hcons,hassoc]
        dsimp only
        by_cases hfull : (results++[b]).length≥limit
        · have hlength : (results++[b]).length=limit := by
            rw [List.length_append,List.length_singleton] at hfull ⊢
            omega
          rw [if_pos hfull,List.take_append_of_le_length hfull,←hlength,List.take_length]
        · rw [if_neg hfull]
          exact ih (not_le.mp hfull)

/-- Fewer items than the limit are all of them. -/
theorem take_perm_iff {limit : ℕ} {all expected : List β} (h : expected.length<limit) :
    (all.take limit).Perm expected ↔ all.Perm expected := by
  constructor
  · intro hperm
    have hlength := hperm.length_eq
    rw [List.length_take] at hlength
    rwa [List.take_of_length_le (by omega)] at hperm
  · intro hperm
    rwa [List.take_of_length_le (by rw [hperm.length_eq]; exact h.le)]

/-- Cutting each part at the limit does not change what the limit keeps of all
of them. -/
theorem take_flatMap_take (f : α → List β) (limit : ℕ) (parts : List α) {n : ℕ} (hn : n≤limit) :
    (parts.flatMap fun a => (f a).take limit).take n=(parts.flatMap f).take n := by
  induction parts generalizing n with
  | nil => rfl
  | cons a parts ih =>
    rw [List.flatMap_cons,List.flatMap_cons,List.take_append,List.take_append,List.take_take,
      Nat.min_eq_left hn,List.length_take]
    rcases Nat.le_total limit (f a).length with hlong | hshort
    · rw [Nat.min_eq_left hlong,Nat.sub_eq_zero_of_le hn,
        Nat.sub_eq_zero_of_le (hn.trans hlong),List.take_zero,List.take_zero]
    · rw [Nat.min_eq_right hshort,ih ((Nat.sub_le _ _).trans hn)]

/-- Rows in strict order of their keys. -/
def KeyOrdered (key : β → List UInt8) (rows : List β) : Prop :=
  rows.Pairwise fun a b => compare (key a) (key b)=Ordering.lt

/-- Rows in the order of their keys are determined by which rows they are. -/
theorem KeyOrdered.eq_of_mem_iff {key : β → List UInt8} {xs ys : List β} (hx : KeyOrdered key xs)
    (hy : KeyOrdered key ys) (h : ∀ b, b∈xs ↔ b∈ys) : xs=ys := by
  have hnodup : ∀ {rows : List β}, KeyOrdered key rows → rows.Nodup := by
    intro rows hrows
    refine hrows.imp fun {a b} hlt heq => ?_
    rw [heq,Std.ReflOrd.compare_self] at hlt
    cases hlt
  have hperm := (List.perm_ext_iff_of_nodup (hnodup hx) (hnodup hy)).mpr h
  refine List.Perm.eq_of_pairwise (fun a b _ _ hab hba => ?_) hx hy hperm
  exact absurd hba (Std.OrientedCmp.not_lt_of_lt hab)

/-- Rows in the order of the bytes of their times. -/
def Wrapped (time : α → Int64) (rows : List α) : Prop :=
  rows.Pairwise fun a b => unsigned (time a)≤unsigned (time b)

/-- Which rows come before the first one at or past the end: a negative one
does only when every row before it is before the end. -/
theorem mem_takeWhile_of_wrapped {time : α → Int64} {rows : List α} (h : Wrapped time rows)
    {stop : α → Bool} {untilMs : Int64} (hstop : ∀ row∈rows, stop row=true ↔ untilMs≤time row)
    {row : α} : row∈rows.takeWhile (fun row => !stop row) ↔
      row∈rows ∧ time row<untilMs ∧
        (time row<0 → ∀ other∈rows, 0≤time other → time other<untilMs) := by
  induction rows with
  | nil => simp only [List.takeWhile_nil,List.not_mem_nil,false_and]
  | cons first rows ih =>
    obtain ⟨hfirst,hrows⟩ := List.pairwise_cons.mp h
    have ih := ih hrows fun row hrow => hstop row (List.mem_cons_of_mem _ hrow)
    have hstop := hstop first List.mem_cons_self
    by_cases hend : untilMs≤time first
    · rw [List.takeWhile_cons_of_neg (by rw [hstop.mpr hend]; exact Bool.false_ne_true)]
      constructor
      · exact fun hmem => absurd hmem List.not_mem_nil
      · rintro ⟨hmem,hlt,hneg⟩
        rcases List.mem_cons.mp hmem with rfl | hmem
        · exact absurd hlt (not_lt.mpr hend)
        · rcases unsigned_le_iff.mp (hfirst row hmem) with ⟨hpos,hrow⟩ | ⟨-,hle⟩
          · exact absurd (hneg hrow first List.mem_cons_self hpos) (not_lt.mpr hend)
          · exact absurd hlt (not_lt.mpr (hend.trans hle))
    · have hgo : (!stop first)=true := by
        rw [Bool.not_eq_true',Bool.eq_false_iff]
        exact fun h => hend (hstop.mp h)
      rw [List.takeWhile_cons_of_pos (p:=fun row => !stop row) hgo,List.mem_cons,ih,List.mem_cons]
      have hlt := not_le.mp hend
      constructor
      · rintro (rfl | ⟨hmem,hrow,hneg⟩)
        · refine ⟨Or.inl rfl,hlt,fun hneg other hother hpos => ?_⟩
          rcases List.mem_cons.mp hother with rfl | hother
          · exact hlt
          · rcases unsigned_le_iff.mp (hfirst other hother) with ⟨hpos',-⟩ | ⟨hsign,-⟩
            · exact absurd hneg (not_lt.mpr hpos')
            · exact absurd hneg (not_lt.mpr (hsign.mpr hpos))
        · refine ⟨Or.inr hmem,hrow,fun h other hother hpos => ?_⟩
          rcases List.mem_cons.mp hother with rfl | hother
          · exact hlt
          · exact hneg h other hother hpos
      · rintro ⟨rfl | hmem,hrow,hneg⟩
        · exact Or.inl rfl
        · exact Or.inr ⟨hmem,hrow,fun h other hother => hneg h other (List.mem_cons_of_mem _ hother)⟩

/-- Items under a condition are the items of which the condition holds. -/
theorem scanned_filter (stop : α → Bool) (item : α → Option β) (p : β → Bool) (rows : List α) :
    scanned stop (fun row => (item row).filter p) rows=(scanned stop item rows).filter p :=
  List.filter_filterMap.symm

/-- A scan repeats no item when its rows have different ones. -/
theorem nodup_scanned {item : α → Option β} {rows : List α} (h : (rows.filterMap item).Nodup)
    (stop : α → Bool) : (scanned stop item rows).Nodup :=
  h.sublist ((List.takeWhile_sublist _).filterMap item)

/-- What a scan finds in rows ordered by the bytes of their times. -/
theorem mem_scanned {time : α → Int64} {rows : List α} (h : Wrapped time rows)
    {stop : α → Bool} {untilMs : Int64} (hstop : ∀ row∈rows, stop row=true ↔ untilMs≤time row)
    {item : α → Option β} {itemTime : β → Int64}
    (hitem : ∀ row∈rows, ∃ b, item row=some b ∧ itemTime b=time row) {b : β} :
    b∈scanned stop item rows ↔ b∈rows.filterMap item ∧ itemTime b<untilMs ∧
      (itemTime b<0 → ∀ x∈rows.filterMap item, 0≤ itemTime x → itemTime x<untilMs) := by
  have htime : ∀ row∈rows, ∀ x, item row=some x → itemTime x=time row := by
    intro row hrow x hx
    obtain ⟨y,hy,htime⟩ := hitem row hrow
    rw [hx,Option.some.injEq] at hy
    rw [hy,htime]
  simp only [scanned,List.mem_filterMap]
  constructor
  · rintro ⟨row,hrow,hb⟩
    obtain ⟨hmem,hlt,hneg⟩ := (mem_takeWhile_of_wrapped h hstop).mp hrow
    rw [htime row hmem b hb]
    refine ⟨⟨row,hmem,hb⟩,hlt,fun hsign x hx hpos => ?_⟩
    obtain ⟨other,hother,hx⟩ := hx
    rw [htime other hother x hx] at hpos ⊢
    exact hneg hsign other hother hpos
  · rintro ⟨⟨row,hmem,hb⟩,hlt,hneg⟩
    rw [htime row hmem b hb] at hlt hneg
    refine ⟨row,(mem_takeWhile_of_wrapped h hstop).mpr ⟨hmem,hlt,?_⟩,hb⟩
    intro hsign other hother hpos
    obtain ⟨x,hx,hxtime⟩ := hitem other hother
    rw [←hxtime] at hpos ⊢
    exact hneg hsign x ⟨other,hother,hx⟩ hpos

end

end TokiSync.RangeScans
