import AdminPolicy.PolicyDocument
import AdminPolicy.Proofs.Document
import Mathlib.Data.List.Basic

/-!
# The layout of an identity list

An identity list names the same identities however it is laid out. A list is read in two cuts, first into lines and
then at commas, but those whom it names are those named between any two separators, be they commas or line feeds
(`identities_eq_named`): the carriage return that belongs to the end of a line is a blank at the end of a token, and
a line that is not there names nobody. So a list that is put together from two names those of the first and then those
of the second (`identities_append`), and a list that is put together from any number of pieces names those of the
pieces in their order, whatever stands between them (`LaidOut.identities_eq`).

A directive of a policy document is such a list, put together from a property and from its children. Laying it out
differently does not change what a policy comes to (`compile_laidOut`).
-/

namespace AdminPolicy

open Text

namespace IdentityList

/-! ## Between the separators -/

/-- Whether a character stands between two tokens of a list. -/
def isSeparator (c : Char) : Bool := c == ',' || c == '\n'

/-- Those whom a text names between its separators. -/
def named (s : List Char) : List Identity := (s.splitOnP isSeparator).filterMap identity?

theorem named_nil : named [] = [] := by
  rw [named, List.splitOnP_nil]
  rfl

/-- A separator keeps those before it apart from those behind it. -/
theorem named_append_cons {c : Char} (hc : isSeparator c = true) (a b : List Char) :
    named (a ++ c :: b) = named a ++ named b := by
  unfold named
  rw [List.splitOnP_append_cons a b hc, List.filterMap_append]

theorem named_joinWith {c : Char} (hc : isSeparator c = true) (ps : List (List Char)) :
    named (joinWith [c] ps) = ps.flatMap named := by
  induction ps using joinWith.induct with
  | case1 => exact named_nil
  | case2 p => simp [joinWith]
  | case3 p q ps ih =>
    rw [joinWith, List.append_assoc, List.singleton_append, named_append_cons hc, ih]
    rfl

/-- What holds no separator is added to the last piece of a cut. -/
theorem exists_splitOnP_append {p : Char → Bool} {t : List Char} (ht : ∀ c ∈ t, p c = false) (s : List Char) :
    ∃ front last, s.splitOnP p = front ++ [last] ∧ (s ++ t).splitOnP p = front ++ [last ++ t] := by
  induction s with
  | nil => exact ⟨[], [], List.splitOnP_nil, List.splitOnP_eq_singleton ht⟩
  | cons c s ih =>
    obtain ⟨front, last, hs, hst⟩ := ih
    rw [List.cons_append, List.splitOnP_cons_eq_if_modifyHead, List.splitOnP_cons_eq_if_modifyHead, hs, hst]
    by_cases hc : p c = true
    · exact ⟨[] :: front, last, by simp [hc], by simp [hc]⟩
    · cases front with
      | nil => exact ⟨[], c :: last, by simp [hc], by simp [hc]⟩
      | cons q front => exact ⟨(c :: q) :: front, last, by simp [hc], by simp [hc]⟩

/-! ## The end of a line -/

theorem trim_append_blank {c : Char} (hc : isBlank c = true) (s : List Char) : trim (s ++ [c]) = trim s := by
  unfold trim trimLeft
  rw [List.dropWhile_append]
  by_cases hs : s.dropWhile isBlank = []
  · simp [hs, hc]
  · simp [hs, trimRight, hc]

/-- A carriage return at the end of a text names nobody, and is part of no name. -/
theorem named_append_return (s : List Char) : named (s ++ ['\r']) = named s := by
  have hreturn : ∀ c ∈ ['\r'], isSeparator c = false := by simp [isSeparator]
  obtain ⟨front, last, hs, hsr⟩ := exists_splitOnP_append hreturn s
  have hlast : identity? (last ++ ['\r']) = identity? last := by
    unfold identity?
    rw [trim_append_blank (by decide)]
  unfold named
  rw [hs, hsr, List.filterMap_append, List.filterMap_append, List.filterMap_cons, List.filterMap_cons, hlast]

theorem named_stripReturn (s : List Char) : named (stripReturn s) = named s := by
  unfold stripReturn
  split
  · rename_i hlast
    have hs : s.dropLast ++ ['\r'] = s := List.dropLast_append_getLast? '\r' hlast
    rw [← named_append_return, hs]
  · rfl

/-- The lines name those whom the pieces between line feeds name. -/
theorem flatMap_named_linesOfPieces (ps : List (List Char)) : (linesOfPieces ps).flatMap named = ps.flatMap named := by
  induction ps using linesOfPieces.induct with
  | case1 => rfl
  | case2 => simp [linesOfPieces, named_nil]
  | case3 last hlast => simp [linesOfPieces, hlast]
  | case4 p q ps ih => rw [linesOfPieces, List.flatMap_cons, List.flatMap_cons, named_stripReturn, ih]

theorem lineFeed_not_mem_of_mem_lines {s l : List Char} (h : l ∈ lines s) : '\n' ∉ l := by
  have hps : ∀ p ∈ splitOn '\n' s, '\n' ∉ p := fun p => not_mem_of_mem_splitOn
  unfold lines at h
  generalize splitOn '\n' s = ps at h hps
  induction ps using linesOfPieces.induct with
  | case1 => exact absurd h List.not_mem_nil
  | case2 => exact absurd h (by simp [linesOfPieces])
  | case3 last hlast =>
    have hl : l = last := by simpa [linesOfPieces, hlast] using h
    exact hl ▸ hps last List.mem_cons_self
  | case4 p q ps ih =>
    rw [linesOfPieces] at h
    rcases List.mem_cons.mp h with rfl | h
    · intro hmem
      refine hps p List.mem_cons_self ?_
      unfold stripReturn at hmem
      split at hmem
      · exact List.dropLast_subset p hmem
      · exact hmem
    · exact ih h fun r hr => hps r (List.mem_cons_of_mem _ hr)

/-! ## Both cuts at once -/

theorem splitOn_comma_eq {s : List Char} (h : '\n' ∉ s) : splitOn ',' s = s.splitOnP isSeparator := by
  induction s with
  | nil => rfl
  | cons c s ih =>
    have hc : c ≠ '\n' := fun e => h (by simp [e])
    have hs := ih fun hmem => h (List.mem_cons_of_mem _ hmem)
    rw [List.splitOnP_cons_eq_if_modifyHead, ← hs]
    obtain ⟨p, ps, hps⟩ := List.exists_cons_of_ne_nil (splitOn_ne_nil ',' s)
    by_cases hcomma : c = ','
    · simp [splitOn, isSeparator, hcomma]
    · simp [splitOn, isSeparator, hcomma, hc, hps]

/-- **A list names those named between its separators**, commas and line feeds alike. -/
theorem identities_eq_named (raw : String) : identities raw = named raw.toList := by
  have hfeed : '\n' ∉ joinWith [','] (lines raw.toList) := by
    intro hmem
    rcases mem_joinWith hmem with hmem | ⟨l, hl, hmem⟩
    · exact absurd hmem (by decide)
    · exact lineFeed_not_mem_of_mem_lines hl hmem
  calc identities raw
      = (tokens raw.toList).filterMap identity? := identities_eq_filterMap raw
    _ = named (joinWith [','] (lines raw.toList)) := by rw [tokens, splitOn_comma_eq hfeed, named]
    _ = (lines raw.toList).flatMap named := named_joinWith rfl _
    _ = (splitOn '\n' raw.toList).flatMap named := flatMap_named_linesOfPieces _
    _ = named (joinWith ['\n'] (splitOn '\n' raw.toList)) := (named_joinWith rfl _).symm
    _ = named raw.toList := by rw [joinWith_splitOn]

/-! ## Putting lists together -/

/-- What may stand between two pieces of a list. -/
def separators : List String := [",", "\n", "\r\n"]

/-- **Two lists in one**: whatever separates them, the identities are those of the first and then those of the
second. -/
theorem identities_append {sep : String} (hsep : sep ∈ separators) (a b : String) :
    identities (a ++ sep ++ b) = identities a ++ identities b := by
  simp only [identities_eq_named, String.toList_append, List.append_assoc]
  simp only [separators, List.mem_cons, List.not_mem_nil, or_false] at hsep
  rcases hsep with rfl | rfl | rfl
  · exact named_append_cons rfl _ _
  · exact named_append_cons rfl _ _
  · have hreturn : a.toList ++ ("\r\n".toList ++ b.toList) = (a.toList ++ ['\r']) ++ '\n' :: b.toList := by simp
    rw [hreturn, named_append_cons rfl, named_append_return]

/-- A text that consists of pieces with a separator, any of them, between each two neighbours. -/
inductive LaidOut : List String → String → Prop
  | none : LaidOut [] ""
  | one (p : String) : LaidOut [p] p
  | more (p sep : String) (hsep : sep ∈ separators) {q : String} {ps : List String} {text : String}
      (rest : LaidOut (q :: ps) text) : LaidOut (p :: q :: ps) (p ++ sep ++ text)

/-- **A list of pieces names those of the pieces**, in their order. -/
theorem LaidOut.identities_eq {pieces : List String} {text : String} (h : LaidOut pieces text) :
    identities text = pieces.flatMap identities := by
  induction h with
  | none => decide
  | one p => simp
  | more p sep hsep _ ih =>
    rw [identities_append hsep, ih]
    rfl

/-- Joining pieces with a separator is one way to lay them out. -/
theorem laidOut_joinStrings {sep : String} (hsep : sep ∈ separators) (pieces : List String) :
    LaidOut pieces (joinStrings sep pieces) := by
  induction pieces with
  | nil => exact .none
  | cons p pieces ih =>
    cases pieces with
    | nil => simpa [joinStrings, joinWith] using LaidOut.one p
    | cons q pieces =>
      have hjoin : joinStrings sep (p :: q :: pieces) = p ++ sep ++ joinStrings sep (q :: pieces) := by
        apply String.toList_injective
        simp [joinStrings, joinWith]
      rw [hjoin]
      exact .more p sep hsep ih

end IdentityList

/-! ## The value of a directive -/

namespace PolicyDocument

/-- The texts that a node gives for a value: its property `value` if that is a text, and the first argument of each
child `-` of which it is a text. -/
def pieces (n : Kdl.Node) : List String :=
  (match n.property? "value" with
    | some (.text s) => [s]
    | _ => []) ++
  n.children.filterMap fun c =>
    match c.argument? with
    | some (.text line) => if c.name = "-" then some line else none
    | _ => none

theorem pieces_eq (n : Kdl.Node) :
    pieces n = ((n.property? "value").bind Kdl.Value.text?).toList ++ listLines n := by
  have hproperty : (match n.property? "value" with
      | some (.text s) => [s]
      | _ => []) = ((n.property? "value").bind Kdl.Value.text?).toList := by
    cases n.property? "value" with
    | none => rfl
    | some v => cases v <;> rfl
  unfold pieces listLines
  rw [hproperty, List.filterMap_filter]
  congr 2
  funext c
  unfold Kdl.Node.textArgument?
  cases c.argument? with
  | none => simp
  | some v => cases v <;> simp [Kdl.Value.text?]

/-- A directive's property is a text, or is not there. -/
theorem property?_of_readValue {key : String} {n : Kdl.Node} {value? : Option String}
    (h : readValue key n = .ok value?) : value? = (n.property? "value").bind Kdl.Value.text? := by
  unfold readValue at h
  split at h
  · rename_i hproperty
    cases h
    rw [hproperty]
    rfl
  · rename_i s hproperty
    cases h
    rw [hproperty]
    rfl
  · cases h

/-- The value of a directive is made of the pieces of its node, each on a line of its own. -/
theorem value_of_readEntry {n : Kdl.Node} {e : Entry} (h : readEntry n = .ok e) :
    e.value = joinStrings "\n" (pieces n) := by
  unfold readEntry at h
  cases hkey : readKey n with
  | error f => simp only [bind, Except.bind, hkey] at h; cases h
  | ok key =>
    cases hdisabled : readDisabled key n with
    | error f => simp only [bind, Except.bind, hkey, hdisabled] at h; cases h
    | ok disabled =>
      cases hvalue : readValue key n with
      | error f => simp only [bind, Except.bind, hkey, hdisabled, hvalue] at h; cases h
      | ok value? =>
        simp only [bind, Except.bind, hkey, hdisabled, hvalue] at h
        cases h
        rw [pieces_eq, ← property?_of_readValue hvalue]

end PolicyDocument

/-- Of the value of an entry, only whom it names matters. -/
theorem Draft.add_value {e : Entry} {text : String} (h : IdentityList.identities text = IdentityList.identities e.value)
    (d : Draft) : d.add { e with value := text } = d.add e := by
  unfold add
  dsimp only
  rw [h]

theorem compile_value {e : Entry} {text : String} (h : IdentityList.identities text = IdentityList.identities e.value)
    (before after : List Entry) (system : String) :
    compile (before ++ { e with value := text } :: after) system = compile (before ++ e :: after) system := by
  unfold compile
  simp only [List.foldl_append, List.foldl_cons, Draft.add_value h]

/-- **How identities are laid out does not matter.** Two lists in one, whatever separates them, name the identities of
the first and then those of the second. So a directive names the identities of its property and then those of its
children, and comes to the same, wherever it stands in a policy, when its pieces are put together with any separators.
-/
theorem compile_laidOut :
    (∀ sep ∈ IdentityList.separators, ∀ a b : String,
      IdentityList.identities (a ++ sep ++ b) = IdentityList.identities a ++ IdentityList.identities b) ∧
    ∀ (n : Kdl.Node) (e : Entry), PolicyDocument.readEntry n = .ok e →
      IdentityList.identities e.value = (PolicyDocument.pieces n).flatMap IdentityList.identities ∧
      ∀ text, IdentityList.LaidOut (PolicyDocument.pieces n) text → ∀ before after system,
        compile (before ++ { e with value := text } :: after) system = compile (before ++ e :: after) system := by
  refine ⟨fun sep hsep a b => IdentityList.identities_append hsep a b, fun n e hread => ?_⟩
  have hlines : IdentityList.LaidOut (PolicyDocument.pieces n) e.value := by
    rw [PolicyDocument.value_of_readEntry hread]
    exact IdentityList.laidOut_joinStrings (by simp [IdentityList.separators]) _
  refine ⟨hlines.identities_eq, fun text htext before after system => ?_⟩
  have hsame : IdentityList.identities text = IdentityList.identities e.value :=
    htext.identities_eq.trans hlines.identities_eq.symm
  exact compile_value hsame before after system

/-- A property that ends with a comma, a child that ends with a carriage return and one that is no text. -/
theorem compile_laidOut_mixed :
    let n : Kdl.Node := .mk "entry" [.argument (.text "client-admins"), .property "value" (.text "alice,")]
      [.mk "-" [.argument (.text "EX\\bob\r")] [], .mk "-" [.argument (.boolean true)] [],
        .mk "-" [.argument (.text "%ops,carol")] []]
    IdentityList.identities ("alice," ++ "\r\n" ++ "EX\\bob") =
        IdentityList.identities "alice," ++ IdentityList.identities "EX\\bob" ∧
      ∃ e, PolicyDocument.readEntry n = .ok e ∧
        IdentityList.identities e.value = [⟨"alice", false⟩, ⟨"bob@EX", false⟩, ⟨"ops", true⟩, ⟨"carol", false⟩] ∧
        ∀ before after system,
          compile (before ++ ⟨.clientAdmins, "alice,,EX\\bob\r\r\n%ops,carol", false⟩ :: after) system =
            compile (before ++ e :: after) system := by
  intro n
  obtain ⟨happend, hnode⟩ := compile_laidOut
  have hread : PolicyDocument.readEntry n = .ok ⟨.clientAdmins, "alice,\nEX\\bob\r\n%ops,carol", false⟩ := by
    decide +kernel
  have hlaid : IdentityList.LaidOut (PolicyDocument.pieces n) "alice,,EX\\bob\r\r\n%ops,carol" :=
    .more "alice," "," (by decide) (.more "EX\\bob\r" "\r\n" (by decide) (.one "%ops,carol"))
  obtain ⟨hidentities, hcompile⟩ := hnode n _ hread
  exact ⟨happend "\r\n" (by decide) _ _, _, hread, hidentities.trans (by decide +kernel), hcompile _ hlaid⟩

end AdminPolicy
