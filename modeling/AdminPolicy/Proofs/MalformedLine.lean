import AdminPolicy.Proofs.KeyFileLines
import AdminPolicy.Proofs.Layering
import AdminPolicy.Proofs.Naming
import AdminPolicy.Proofs.Preview

/-!
# Malformed lines

A header that its line does not close and a key that its line does not end are left open: reading goes on in the next
lines, until one of them holds what is missing (`Fault.ClosedBy`). If none does, the text is no key file
(`exists_error_of_not_carriedOver`), and a fragment that is none stops whoever reads it, before anything is written.
-/

namespace AdminPolicy

open Text

namespace KeyFile

/-! ## What is left open -/

/-- A line that is neither blank nor a comment nor, on its own, a header or an assignment. -/
def IsMalformed (l : List Char) : Prop :=
  ∃ c, (trimLeft l).head? = some c ∧ c ≠ '#' ∧ c ≠ ';' ∧ if c = '[' then ']' ∉ l else '=' ∉ l ∧ ':' ∉ l

/-- What is left open at the end of a text may be closed by what follows. -/
def Fault.ClosedBy (cs : List Char) : Fault → Prop
  | .missingKey | .commentInside => False
  | .unclosedHeader => ']' ∈ cs
  | .unfinishedKey => '=' ∈ cs ∨ ':' ∈ cs

/-- Lines leave a header or a key open that the lines behind them close. -/
def CarriedOver (before behind : List (List Char)) : Prop :=
  ∃ err, scan .between 0 true (joinWith ['\n'] before) = .error err ∧ err.fault.ClosedBy (joinWith ['\n'] behind)

theorem Fault.closedBy_lineFeed_cons {f : Fault} {cs : List Char} : f.ClosedBy ('\n' :: cs) ↔ f.ClosedBy cs := by
  cases f <;> simp [Fault.ClosedBy]

theorem scan_header_open {cs : List Char} (h : ']' ∉ cs) (sofar : List Char) (line : Nat) (first : Bool) :
    ∃ line', scan (.header sofar) line first cs = .error ⟨.unclosedHeader, line'⟩ := by
  induction cs generalizing sofar line first with
  | nil => exact ⟨_, rfl⟩
  | cons c cs ih =>
    obtain ⟨hc, h⟩ := not_mem_cons h
    simp only [scan, hc, ↓reduceIte]
    exact ih h _ _ _

theorem scan_key_open {cs : List Char} (he : '=' ∉ cs) (hc : ':' ∉ cs) (sofar : List Char) (line : Nat)
    (first : Bool) : ∃ line', scan (.key sofar) line first cs = .error ⟨.unfinishedKey, line'⟩ := by
  induction cs generalizing sofar line first with
  | nil => exact ⟨_, rfl⟩
  | cons c cs ih =>
    obtain ⟨hce, he⟩ := not_mem_cons he
    obtain ⟨hcc, hc⟩ := not_mem_cons hc
    simp only [scan, hce, hcc, decide_false, Bool.or_self, Bool.false_eq_true, ↓reduceIte]
    exact ih he hc _ _ _

theorem error_of_map_append {r : Except SyntaxError (List Item)} {items : List Item} {err : SyntaxError}
    (h : r.map (items ++ ·) = .error err) : r = .error err := by
  cases r with
  | error e => exact congrArg Except.error (Except.error.inj h)
  | ok rest => cases h

/-- **A fault that the rest of the text does not close stays a fault.** -/
theorem scan_append_of_error {cs : List Char} {mode : Mode} {line : Nat} {first : Bool} {err : SyntaxError}
    (h : scan mode line first cs = .error err) {rest : List Char} (hf : ¬ err.fault.ClosedBy rest) :
    ∃ line', scan mode line first (cs ++ rest) = .error ⟨err.fault, line'⟩ := by
  induction cs generalizing mode line first with
  | nil =>
    -- at the end of a text only what is left open is a fault
    cases mode with
    | between => cases h
    | comment => cases h
    | header sofar =>
      cases h
      exact scan_header_open hf sofar line first
    | key sofar =>
      cases h
      exact scan_key_open (fun he => hf (Or.inl he)) (fun hc => hf (Or.inr hc)) sofar line first
    | value _ _ => cases h
  | cons c cs ih =>
    rcases scan_cons mode line first c with ⟨fault, hc⟩ | ⟨mode', line', first', items, hc⟩
    · rw [hc] at h
      cases h
      exact ⟨_, hc _⟩
    · rw [hc] at h
      obtain ⟨line'', hrest⟩ := ih (error_of_map_append h)
      exact ⟨line'', by rw [List.cons_append, hc, hrest]; rfl⟩

/-- A malformed line is a fault on its own. -/
theorem exists_error_of_isMalformed {l : List Char} (h : IsMalformed l) (line : Nat) (first : Bool) :
    ∃ err, scan .between line first l = .error err := by
  obtain ⟨c, hhead, hhash, hsemicolon, hopen⟩ := h
  obtain ⟨text, htext⟩ := List.head?_eq_some_iff.mp hhead
  obtain ⟨bs, hbs, hl⟩ := exists_trimLeft l
  rw [htext] at hl
  have hblank : isBlank c = false := head?_trimLeft l c hhead
  have hmem : ∀ d ∈ c :: text, d ∈ l := fun d hd => hl ▸ List.mem_append_right _ hd
  obtain ⟨line', first', hrest⟩ := scan_blank_append hbs line first
  rw [hl, hrest]
  by_cases hbracket : c = '['
  · rw [if_pos hbracket] at hopen
    subst hbracket
    obtain ⟨n, hn⟩ := scan_header_open (fun hd => hopen (hmem _ (List.mem_cons_of_mem _ hd))) [] line' false
    exact ⟨_, hn⟩
  · rw [if_neg hbracket] at hopen
    obtain ⟨he, hcolon⟩ := hopen
    rw [scan_key_begin hblank hhash hsemicolon hbracket (fun hc => he (hc ▸ hmem c List.mem_cons_self))
      (fun hc => hcolon (hc ▸ hmem c List.mem_cons_self))]
    obtain ⟨n, hn⟩ := scan_key_open (fun hd => he (hmem _ (List.mem_cons_of_mem _ hd)))
      (fun hd => hcolon (hmem _ (List.mem_cons_of_mem _ hd))) [c] line' false
    exact ⟨_, hn⟩

/-! ## Lines before and behind -/

theorem joinWith_append {sep : List Char} {ps qs : List (List Char)} (hp : ps ≠ []) (hq : qs ≠ []) :
    joinWith sep (ps ++ qs) = joinWith sep ps ++ sep ++ joinWith sep qs := by
  induction ps using joinWith.induct with
  | case1 => exact absurd rfl hp
  | case2 p =>
    obtain ⟨q, qs, rfl⟩ := List.exists_cons_of_ne_nil hq
    rfl
  | case3 p p' ps ih =>
    have ih := ih (by simp)
    simp only [List.cons_append, joinWith, List.append_assoc] at ih ⊢
    rw [ih]

/-- Lines that are at fault stay so before lines that do not close what they leave open. -/
theorem exists_error_of_not_carriedOver {before behind : List (List Char)} {err : SyntaxError}
    (h : scan .between 0 true (joinWith ['\n'] before) = .error err) (hc : ¬ CarriedOver before behind) :
    ∃ err', scan .between 0 true (joinWith ['\n'] (before ++ behind)) = .error err' := by
  by_cases hbehind : behind = []
  · rw [hbehind, List.append_nil]
    exact ⟨err, h⟩
  have hbefore : before ≠ [] := by
    rintro rfl
    cases h
  have hopen : ¬ err.fault.ClosedBy ('\n' :: joinWith ['\n'] behind) := fun hclosed =>
    hc ⟨err, h, Fault.closedBy_lineFeed_cons.mp hclosed⟩
  obtain ⟨line', hline⟩ := scan_append_of_error h hopen
  rw [joinWith_append hbefore hbehind, List.append_assoc, List.singleton_append]
  exact ⟨_, hline⟩

/-- Lines that each yield something leave nothing open. -/
theorem not_carriedOver_of_yields {before : List (List Char)} {itemss : List (List Item)}
    (h : List.Forall₂ Yields before itemss) (hl : ∀ l ∈ before, '\n' ∉ l) (behind : List (List Char)) :
    ¬ CarriedOver before behind := by
  rintro ⟨err, herr, -⟩
  rw [scan_lines h hl] at herr
  cases herr

/-- Lines with a malformed one at their end are at fault, unless that one closes what was left open before. -/
theorem exists_error_of_isMalformed_last {before : List (List Char)} {l : List Char} (hl : IsMalformed l)
    (hc : ¬ CarriedOver before [l]) : ∃ err, scan .between 0 true (joinWith ['\n'] (before ++ [l])) = .error err := by
  by_cases hbefore : before = []
  · subst hbefore
    exact exists_error_of_isMalformed hl 0 true
  cases hscan : scan .between 0 true (joinWith ['\n'] before) with
  | error err => exact exists_error_of_not_carriedOver hscan hc
  | ok items =>
    -- what was read stays read, and the line is met between items
    obtain ⟨line', hnext⟩ := scan_append_lineFeed hscan
    obtain ⟨err, herr⟩ := exists_error_of_isMalformed hl line' true
    refine ⟨err, ?_⟩
    rw [joinWith_append hbefore (by simp), List.append_assoc, List.singleton_append, hnext, joinWith, herr]
    rfl

end KeyFile

/-! ## Fragments that are no key files -/

section Reading

variable {σ : Type} {host : Host σ} {s : σ}

namespace Fragments

open KeyFile

/-- A directory holds a fragment of others with this text. -/
structure HoldsFragment (host : Host σ) (s : σ) (directory : HostPath) (name source : String) : Prop where
  listed : ∃ names : List String, (host (.listDir directory) s).1 = .ok names ∧ name ∈ names
  isFragment : isFragmentName name = true
  ofOthers : name ≠ ownFragmentName
  isFile : (host (.isDir (directory.join name)) s).1 = .ok false
  holds : (host (.readText (directory.join name)) s).1 = .ok source

theorem parse_eq_fail {source : String} {err : SyntaxError} (h : KeyFile.parse source = .error err) (path : HostPath) :
    parse path source = Action.fail (.fragmentParse path err.line err.fault.message) := by
  unfold parse
  rw [h]

/-- Where layering succeeds, every file that it came to was a key file. -/
theorem exists_parse_of_layerAll (hl : OnlyLooks host) {directory : HostPath} {names : List String} {v w : String}
    (h : ((layerAll directory v names).program.run host s).result = .ok w) {name source : String} (hn : name ∈ names)
    (hisFile : (host (.isDir (directory.join name)) s).1 = .ok false)
    (hholds : (host (.readText (directory.join name)) s).1 = .ok source) :
    ∃ file, KeyFile.parse source = .ok file := by
  rw [result_layerAll fun c hc => hl c s hc] at h
  obtain ⟨value?, hvalue⟩ := ok_of_layered h name hn
  cases hp : KeyFile.parse source with
  | ok file => exact ⟨file, rfl⟩
  | error err =>
    rw [contribution_of_parse hisFile hholds hp] at hvalue
    cases hvalue

/-- A fragment that is no key file makes the administrators of a directory unknown. -/
theorem exists_error_of_holdsFragment (hl : OnlyLooks host) {directory : HostPath} {name source : String}
    (hf : HoldsFragment host s directory name source) {err : SyntaxError} (h : KeyFile.parse source = .error err) :
    ∃ err, ((Enforcer.systemAdmins directory).program.run host s).result = .error err := by
  cases hr : ((Enforcer.systemAdmins directory).program.run host s).result with
  | error err => exact ⟨err, rfl⟩
  | ok v =>
    obtain ⟨names, hnames, hmem⟩ := hf.listed
    have hstate : (host (.listDir directory) s).2 = s := hl _ s rfl
    simp only [Enforcer.systemAdmins, layeredAdmins, Action.program_of, Program.run, hnames, hstate] at hr
    have hlayer : name ∈ layers (fun n => n ≠ ownFragmentName) names :=
      mem_layers.mpr ⟨hmem, hf.isFragment, decide_eq_true hf.ofOthers⟩
    obtain ⟨file, hfile⟩ := exists_parse_of_layerAll hl hr hlayer hf.isFile hf.holds
    rw [h] at hfile
    cases hfile

end Fragments

namespace Enforcer

open CommandLine KeyFile

variable (e : Enforcer)

/-- Without knowing the administrators, no policy of entries is applied, and nothing changes. -/
theorem failsWith_of_systemAdmins (hl : OnlyLooks host) {err : PolicyError}
    (h : ((systemAdmins e.fragmentDirectory).program.run host s).result = .error err) (object : String)
    {entries : List Entry} (hne : entries ≠ []) : FailsWith host err.root (e.apply object true entries) s := by
  refine e.failsWith_of_preview object entries hl err ?_
  unfold preview
  rw [if_neg (by simpa using hne)]
  exact Action.result_bind_of_error (by rw [result_compile, h]; rfl) _

/-- **A malformed line is fatal where nothing closes it.** A line is malformed that is neither blank nor a comment nor
holds what a header or an assignment needs. Unless it closes what the lines before it left open, or the lines behind it
close what is open at its end, the text is no key file. Then, on any host where calls that only look change nothing, a
directory of fragments that holds the text leaves the administrators unknown, and applying entries changes nothing at any
point and is an error for a computer. -/
theorem fatal_of_isMalformed {source : String} {before behind : List (List Char)} {l : List Char}
    (hlines : linesOf source = before ++ l :: behind) (hl : IsMalformed l) (hbefore : ¬ CarriedOver before [l])
    (hbehind : ¬ CarriedOver (before ++ [l]) behind) :
    (∃ line detail, ∀ path, Fragments.parse path source = Action.fail (.fragmentParse path line detail)) ∧
      ∀ {σ : Type} (host : Host σ) (s : σ) (e : Enforcer) (name : String), OnlyLooks host →
        Fragments.HoldsFragment host s e.fragmentDirectory name source →
        (∃ err, ((systemAdmins e.fragmentDirectory).program.run host s).result = .error err) ∧
          ∀ object isComputer entries, entries ≠ [] →
            (isComputer = true → ∃ err, ((e.apply object isComputer entries).program.run host s).result = .error err) ∧
              ∀ s' ∈ ((e.apply object isComputer entries).program.run host s).states s, s' = s := by
  have hparse : ∃ err, KeyFile.parse source = .error err := by
    obtain ⟨err, herr⟩ := exists_error_of_isMalformed_last hl hbefore
    obtain ⟨err, herr⟩ := exists_error_of_not_carriedOver herr hbehind
    rw [List.append_assoc, List.singleton_append, ← hlines, linesOf, Text.joinWith_splitOn] at herr
    exact ⟨err, by rw [KeyFile.parse, herr]; rfl⟩
  obtain ⟨err, herr⟩ := hparse
  refine ⟨⟨err.line, err.fault.message, Fragments.parse_eq_fail herr⟩, fun host s e name hlooks hf => ?_⟩
  obtain ⟨cause, hcause⟩ := Fragments.exists_error_of_holdsFragment hlooks hf herr
  refine ⟨⟨cause, hcause⟩, fun object isComputer entries hne => ?_⟩
  cases isComputer with
  | true =>
    obtain ⟨⟨err', herr', -⟩, hstates⟩ := (e.failsWith_of_systemAdmins hlooks hcause object hne).result
    exact ⟨fun _ => ⟨err', herr'⟩, hstates⟩
  | false =>
    have hstates : ((e.apply object false entries).program.run host s).states s = [s, s] := rfl
    exact ⟨nofun, fun s' hs' => by simpa [hstates] using hs'⟩

/-- A fragment with a line that is no assignment, and only a comment behind it. -/
def brokenSource : String := "[Configuration]\nAdminIdentities=unix-user:a\nnot a pair\n# end\n"

def brokenTree : Memory.Tree :=
  [(⟨"p"⟩, .directory 0o755), (⟨"p/localauthority.conf.d"⟩, .directory 0o755),
    (⟨"p/localauthority.conf.d/50-site.conf"⟩, .file brokenSource.toUTF8 0o644)]

theorem holdsFragment_brokenTree :
    Fragments.HoldsFragment Memory.host brokenTree ⟨"p/localauthority.conf.d"⟩ "50-site.conf" brokenSource := by
  have hlisted : Memory.listDir ⟨"p/localauthority.conf.d"⟩ brokenTree = .ok ["50-site.conf"] := by decide +kernel
  have hisFile : Memory.isDir ⟨"p/localauthority.conf.d/50-site.conf"⟩ brokenTree = .ok false := by decide +kernel
  have hholds : Memory.readText ⟨"p/localauthority.conf.d/50-site.conf"⟩ brokenTree = .ok brokenSource := by
    decide +kernel
  exact ⟨⟨_, hlisted, List.mem_singleton_self _⟩, by decide +kernel, by decide +kernel, hisFile, hholds⟩

/-- Nothing is applied on that host. -/
theorem fatal_of_isMalformed_brokenTree :
    let e := Enforcer.of ⟨"s"⟩ ⟨"p"⟩
    let r := (e.apply "HOST" true [⟨.clientAdmins, "bob", false⟩]).program.run Memory.host brokenTree
    (∃ line detail, ∀ path, Fragments.parse path brokenSource = Action.fail (.fragmentParse path line detail)) ∧
      (∃ err, ((systemAdmins e.fragmentDirectory).program.run Memory.host brokenTree).result = .error err) ∧
      (∃ err, r.result = .error err) ∧ ∀ t ∈ r.states brokenTree, t = brokenTree := by
  intro e r
  have hbefore : List.Forall₂ Yields ["[Configuration]".toList, "AdminIdentities=unix-user:a".toList]
      [[.header "Configuration".toList], [.assignment "AdminIdentities".toList "unix-user:a".toList]] :=
    .cons yields_configuration (.cons (yields_adminIdentities (by decide +kernel)) .nil)
  have hlines : linesOf brokenSource = ["[Configuration]".toList, "AdminIdentities=unix-user:a".toList] ++
      "not a pair".toList :: ["# end".toList, []] := by decide +kernel
  have hmalformed : IsMalformed "not a pair".toList := ⟨'n', by decide +kernel⟩
  have hbehind : ¬ CarriedOver ["[Configuration]".toList, "AdminIdentities=unix-user:a".toList, "not a pair".toList]
      ["# end".toList, []] := by
    rintro ⟨err, herr, hclosed⟩
    obtain rfl : ⟨.unfinishedKey, 4⟩ = err := Except.error.inj herr
    exact absurd hclosed (by simp [Fault.ClosedBy, Text.joinWith])
  obtain ⟨hparse, hhost⟩ := fatal_of_isMalformed hlines hmalformed
    (not_carriedOver_of_yields hbefore (by decide +kernel) _) hbehind
  obtain ⟨hadmins, happly⟩ := hhost Memory.host brokenTree e "50-site.conf" onlyLooks_memory holdsFragment_brokenTree
  obtain ⟨herror, hstates⟩ := happly "HOST" true [⟨.clientAdmins, "bob", false⟩] (List.cons_ne_nil _ _)
  exact ⟨hparse, hadmins, herror rfl, hstates⟩

/-- A line that is no assignment, and behind it one that ends what it leaves open. -/
def swallowedSource : String := "[Configuration]\ngarbage\nAdminIdentities=unix-user:bob\n"

/-- **A malformed line need not be fatal**: a later line closes what it leaves open, and is lost with it. -/
theorem not_fatal_of_isMalformed : ¬ ∀ (source : String) (l : List Char), l ∈ linesOf source → IsMalformed l →
    ∃ err, KeyFile.parse source = .error err := by
  intro h
  have hmalformed : IsMalformed "garbage".toList := ⟨'g', by decide +kernel⟩
  obtain ⟨err, herr⟩ := h swallowedSource "garbage".toList (by decide +kernel) hmalformed
  have hparse : (KeyFile.parse swallowedSource).toOption.isSome = true := by decide +kernel
  rw [herr] at hparse
  cases hparse

end Enforcer

end Reading

end AdminPolicy
