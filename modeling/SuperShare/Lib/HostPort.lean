import Mathlib.Algebra.Group.Nat.Defs

/-!
# Hosts and ports as text

The text `host:port`: how a resolver splits it at its last colon, how a 16-bit port is printed and
parsed, and what a split at every colon makes of it. A text is resolved to a host and a port
exactly if it is the host, a colon and a text of the port.
-/

namespace HostPort

section LastSeparator

variable {α : Type} [DecidableEq α] {sep : α}

/-- Split a list at the last separator. -/
def rsplitOnce (sep : α) : List α → Option (List α × List α)
  | [] => none
  | a :: l =>
      match rsplitOnce sep l with
      | some (before, after) => some (a :: before, after)
      | none => if a = sep then some ([], l) else none

/-- There is nothing to split exactly without a separator. -/
theorem rsplitOnce_eq_none {l : List α} : rsplitOnce sep l = none ↔ sep ∉ l := by
  induction l with
  | nil => simp [rsplitOnce]
  | cons a l ih =>
    rw [rsplitOnce, List.mem_cons, not_or, ← ih]
    cases rsplitOnce sep l with
    | some parts => simp
    | none => simp [eq_comm]

/-- A list is split at its last separator. -/
theorem rsplitOnce_append (before : List α) {after : List α} (h : sep ∉ after) :
    rsplitOnce sep (before ++ sep :: after) = some (before, after) := by
  induction before with
  | nil =>
    rw [List.nil_append, rsplitOnce, rsplitOnce_eq_none.mpr h]
    exact if_pos rfl
  | cons a before ih => rw [List.cons_append, rsplitOnce, ih]

/-- The parts of a list that is split are those around its last separator. -/
theorem eq_of_rsplitOnce {l before after : List α} (h : rsplitOnce sep l = some (before, after)) :
    l = before ++ sep :: after ∧ sep ∉ after := by
  induction l generalizing before with
  | nil => cases h
  | cons a l ih =>
    rw [rsplitOnce] at h
    cases hl : rsplitOnce sep l with
    | some parts =>
      rw [hl] at h
      cases h
      obtain ⟨heq, hnotin⟩ := ih hl
      exact ⟨congrArg (a :: ·) heq, hnotin⟩
    | none =>
      simp only [hl] at h
      split at h
      · next ha =>
        cases h
        exact ⟨by rw [ha, List.nil_append], rsplitOnce_eq_none.mp hl⟩
      · cases h

end LastSeparator

/-- The text of a port. -/
def portText (port : UInt16) : String := toString port.toNat

/-- Parse a port: decimal digits, perhaps after a plus sign, of a number of 16 bits. -/
def parsePort (text : String) : Option UInt16 :=
  let digits :=
    match text.toList with
    | '+' :: rest => rest
    | chars => chars
  if digits ≠ [] ∧ digits.all Char.isDigit then
    let n := Nat.ofDigitChars 10 digits 0
    if n < 2 ^ 16 then some (UInt16.ofNat n) else none
  else none

/-- The text of a host and a port. -/
def format (host : String) (port : UInt16) : String := host ++ ":" ++ portText port

/-- The host and the port to which a text is resolved. -/
def resolve (address : String) : Option (String × UInt16) := do
  let (host, port) ← rsplitOnce ':' address.toList
  let port ← parsePort (String.ofList port)
  return (String.ofList host, port)

/-- Split a text at every colon. -/
def splitColon (text : String) : List String :=
  (text.toList.splitOn ':').map String.ofList

/-- The digits of a port. -/
theorem toList_portText (port : UInt16) : (portText port).toList = Nat.toDigits 10 port.toNat :=
  Nat.toList_repr

/-- Parsing a port undoes printing it. -/
theorem parsePort_portText (port : UInt16) : parsePort (portText port) = some port := by
  have hdigits : ∀ c ∈ Nat.toDigits 10 port.toNat, c.isDigit = true := fun c hc =>
    Nat.isDigit_of_mem_toDigits (by decide) (by decide) hc
  have hplus : ∀ rest, Nat.toDigits 10 port.toNat ≠ '+' :: rest := by
    intro rest heq
    have hdigit := hdigits '+' (by simp [heq])
    cases hdigit
  rw [parsePort, toList_portText]
  split
  · next rest heq => exact absurd heq (hplus rest)
  · next chars hchars =>
    have hvalue : Nat.ofDigitChars 10 (Nat.toDigits 10 port.toNat) 0 = port.toNat :=
      Nat.ofDigitChars_ten_toDigits
    have hall : (Nat.toDigits 10 port.toNat).all Char.isDigit = true := List.all_eq_true.mpr hdigits
    simp only [hvalue, if_pos (And.intro Nat.toDigits_ne_nil hall), if_pos port.toNat_lt]
    rw [UInt16.ofNat_toNat]

/-- The text of a port has no colon. -/
theorem colon_notMem_portText (port : UInt16) : ':' ∉ (portText port).toList := by
  rw [toList_portText]
  intro hmem
  have hdigit : ':'.isDigit = true := Nat.isDigit_of_mem_toDigits (by decide) (by decide) hmem
  cases hdigit

/-- A host with the text of a port is resolved to the host and the port. -/
theorem resolve_append {host port : String} {p : UInt16} (hcolon : ':' ∉ port.toList)
    (hport : parsePort port = some p) : resolve (host ++ ":" ++ port) = some (host, p) := by
  have hlist : (host ++ ":" ++ port).toList = host.toList ++ ':' :: port.toList := by simp
  rw [resolve, hlist, rsplitOnce_append _ hcolon]
  simp [hport]

/-- A formatted host and port are resolved. -/
theorem resolve_format (host : String) (port : UInt16) :
    resolve (format host port) = some (host, port) :=
  resolve_append (colon_notMem_portText port) (parsePort_portText port)

/-- What is resolved is a host, a colon and the text of a port. -/
theorem eq_of_resolve {address host : String} {p : UInt16} (h : resolve address = some (host, p)) :
    ∃ port, address = host ++ ":" ++ port ∧ ':' ∉ port.toList ∧ parsePort port = some p := by
  simp only [resolve, Option.bind_eq_bind, Option.bind_eq_some_iff] at h
  obtain ⟨⟨before, after⟩, hsplit, port, hport, hresult⟩ := h
  obtain ⟨heq, hcolon⟩ := eq_of_rsplitOnce hsplit
  cases hresult
  refine ⟨String.ofList after, ?_, by simpa using hcolon, hport⟩
  rw [← @String.ofList_toList address, heq]
  simp [String.append_assoc]

/-- A text without a colon is not split. -/
theorem splitColon_of_notMem {text : String} (h : ':' ∉ text.toList) :
    splitColon text = [text] := by
  rw [splitColon, List.splitOn_eq_singleton h]
  simp

/-- A text is split at a colon. -/
theorem splitColon_append (host port : String) :
    splitColon (host ++ ":" ++ port) = splitColon host ++ splitColon port := by
  have hlist : (host ++ ":" ++ port).toList = host.toList ++ ':' :: port.toList := by simp
  rw [splitColon, hlist, List.splitOn_append_cons_self, List.map_append]
  rfl

/-- A text with a colon has at least two parts. -/
theorem two_le_length_splitColon {text : String} (h : ':' ∈ text.toList) :
    2 ≤ (splitColon text).length := by
  obtain ⟨before, after, heq⟩ := List.append_of_mem h
  rw [splitColon, heq, List.splitOn_append_cons_self, List.map_append, List.length_append,
    List.length_map, List.length_map]
  have hbefore := List.length_pos_iff.mpr (List.splitOn_ne_nil ':' before)
  have hafter := List.length_pos_iff.mpr (List.splitOn_ne_nil ':' after)
  omega

/-- The first part of a text does not depend on what follows a colon. -/
theorem headD_splitColon_append (host rest fallback fallback' : String) :
    (splitColon (host ++ ":" ++ rest)).headD fallback = (splitColon host).headD fallback' := by
  have hparts : splitColon host ≠ [] := by simp [splitColon, List.splitOn_ne_nil]
  obtain ⟨first, others, hcons⟩ := List.exists_cons_of_ne_nil hparts
  rw [splitColon_append, hcons]
  rfl

/-- The first of two parts of a text is not split. -/
theorem splitColon_of_pair {text host port : String} (h : splitColon text = [host, port]) :
    splitColon host = [host] := by
  have hparts : text.toList.splitOn ':' = [host.toList, port.toList] := by
    have hmap := congrArg (List.map String.toList) h
    simpa [splitColon, Function.comp_def] using hmap
  have htext : text = host ++ ":" ++ port := by
    have hjoin := @List.intercalate_splitOn Char text.toList _ _ ':'
    rw [hparts] at hjoin
    rw [← String.toList_inj, ← hjoin]
    simp
  rw [htext, splitColon_append] at h
  have hhost : splitColon host ≠ [] := by simp [splitColon, List.splitOn_ne_nil]
  have hport : splitColon port ≠ [] := by simp [splitColon, List.splitOn_ne_nil]
  obtain ⟨first, others, hcons⟩ := List.exists_cons_of_ne_nil hhost
  obtain ⟨last, rest, hlast⟩ := List.exists_cons_of_ne_nil hport
  rw [hcons, hlast, List.cons_append, List.cons.injEq] at h
  obtain ⟨rfl, hothers⟩ := h
  cases others with
  | nil => exact hcons
  | cons second others => simp at hothers

end HostPort
