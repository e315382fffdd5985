import Mathlib.Data.List.TakeWhile
import Mathlib.Tactic.SplitIfs

/-!
# Hosts of URLs

The authority of a URL stands between the two slashes after its scheme and the
first slash, question mark or hash. Its host is what remains without the
userinfo before the last at sign and without the port.
-/

namespace TokiSync.UrlHosts

/-- Whether a character can stand in an authority. -/
def inAuthority (c : Char) : Bool := c ≠ '/' && c ≠ '?' && c ≠ '#'

/-- Authority of a URL. -/
def authority (url : List Char) : Option (List Char) :=
  match url.dropWhile (· ≠ ':') with
  | ':' :: '/' :: '/' :: rest => some (rest.takeWhile inAuthority)
  | _ => none

/-- An authority without its userinfo. -/
def withoutUserinfo (authority : List Char) : List Char :=
  (authority.reverse.takeWhile (· ≠ '@')).reverse

/-- Host of an authority: up to the port, or up to the bracket that closes an
address literal. -/
def host (authority : List Char) : List Char :=
  let hostport := withoutUserinfo authority
  if hostport.head?=some '[' then hostport.takeWhile (· ≠ ']')++[']']
  else hostport.takeWhile (· ≠ ':')

/-- Taking stops within the first part when some of it fails. -/
theorem takeWhile_append_of_exists {α : Type} {p : α → Bool} {xs : List α}
    (h : ∃ x∈xs, p x=false) (ys : List α) : (xs++ys).takeWhile p=xs.takeWhile p := by
  induction xs with
  | nil =>
    obtain ⟨x,hx,-⟩ := h
    cases hx
  | cons a xs ih =>
    rw [List.cons_append,List.takeWhile_cons,List.takeWhile_cons]
    split_ifs with ha
    · obtain ⟨x,hx,hfalse⟩ := h
      rcases List.mem_cons.mp hx with rfl | hx
      · rw [ha] at hfalse
        cases hfalse
      · rw [ih ⟨x,hx,hfalse⟩]
    · rfl

/-- The authority of a URL does not depend on its query. -/
theorem authority_http_query (x query : List Char) :
    authority ('h' :: 't' :: 't' :: 'p' :: ':' :: '/' :: '/' :: (x++ '?' :: query))=
      some (x.takeWhile inAuthority) := by
  have htake : (x++ '?' :: query).takeWhile inAuthority=x.takeWhile inAuthority := by
    have hsplit : x++ '?' :: query=(x++['?'])++query := by
      rw [List.append_assoc,List.singleton_append]
    have hquestion : ∃ c∈x++['?'], inAuthority c=false :=
      ⟨'?',List.mem_append_right _ List.mem_cons_self,rfl⟩
    rw [hsplit,takeWhile_append_of_exists hquestion]
    clear hsplit hquestion
    induction x with
    | nil => rfl
    | cons a x ih =>
      rw [List.cons_append,List.takeWhile_cons,List.takeWhile_cons,ih]
  rw [←htake]
  rfl

/-- What stands before an authority's userinfo ends up in it. -/
theorem withoutUserinfo_append {t : List Char} (h : '@'∈t) (x : List Char) :
    withoutUserinfo (x++t)=withoutUserinfo t := by
  have hat : ∃ c∈t.reverse, decide (c ≠ '@')=false := ⟨'@',List.mem_reverse.mpr h,rfl⟩
  rw [withoutUserinfo,List.reverse_append,takeWhile_append_of_exists hat]
  rfl

/-- An authority without an at sign has no userinfo. -/
theorem withoutUserinfo_of_not_mem {x : List Char} (h : '@'∉x) : withoutUserinfo x=x := by
  have hall : ∀ c∈x.reverse, decide (c ≠ '@')=true := by
    intro c hc
    refine decide_eq_true ?_
    rintro rfl
    exact h (List.mem_reverse.mp hc)
  rw [withoutUserinfo,List.takeWhile_eq_self_iff.mpr hall,List.reverse_reverse]

/-- With userinfo, the host is that of the rest. -/
theorem host_append_of_userinfo {t : List Char} (h : '@'∈t) (x : List Char) :
    host (x++t)=host t := by
  rw [host,host,withoutUserinfo_append h]

/-- Without userinfo, a name and what follows it up to the port are the
host. -/
theorem host_append_of_name {name t : List Char} (hname : ∀ c∈name, c ≠ '@' ∧ c ≠ ':')
    (hhead : ∃ c cs, name=c::cs ∧ c ≠ '[') (ht : '@' ∉ t) :
    host (name++t)=name++t.takeWhile (· ≠ ':') := by
  have hnot : '@'∉name++t := by
    intro hmem
    rcases List.mem_append.mp hmem with hmem | hmem
    · exact (hname _ hmem).1 rfl
    · exact ht hmem
  have hcolon : ∀ c∈name, decide (c ≠ ':')=true := fun c hc => decide_eq_true (hname c hc).2
  obtain ⟨c,cs,hcons,hbracket⟩ := hhead
  rw [host,withoutUserinfo_of_not_mem hnot,if_neg,List.takeWhile_append_of_pos hcolon]
  rw [hcons,List.cons_append,List.head?_cons,Option.some.injEq]
  exact hbracket

/-- Nothing stands before the port exactly when there is only a port. -/
theorem takeWhile_port_eq_nil {t : List Char} :
    t.takeWhile (· ≠ ':')=[] ↔ t=[] ∨ t.head?=some ':' := by
  cases t with
  | nil => exact iff_of_true rfl (Or.inl rfl)
  | cons c cs =>
    rw [List.takeWhile_cons,List.head?_cons,Option.some.injEq]
    by_cases hc : c = ':'
    · rw [if_neg (by rw [hc]; decide)]
      exact iff_of_true rfl (Or.inr hc)
    · rw [if_pos (decide_eq_true hc)]
      refine iff_of_false (List.cons_ne_nil _ _) ?_
      rintro (hnil | hcolon)
      · cases hnil
      · exact hc hcolon

end TokiSync.UrlHosts
