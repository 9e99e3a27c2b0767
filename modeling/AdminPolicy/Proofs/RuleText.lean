import AdminPolicy.Proofs.Compilation
import Mathlib.Data.List.Basic

/-!
# The text of the rules

What a reader of sudoers finds in the rendered rules, whatever the entries hold. Behind the header there are lines of
three kinds and empty ones (`IsRuleLine`), and the quoted subject of a grant is the name of an account, or of a group,
that cannot end its own quotes or line. The runs of lines between empty ones are the blocks of the policy
(`readBlocks?_renderRules`). So the text and the blocks say the same (`compile_renderRules`).
-/

namespace AdminPolicy

open Text IdentityList

/-! ## Lines of rules -/

/-- What a grant quotes: the name of an account, or of a group behind its mark. -/
def IsSubject (s : String) : Prop := ∃ name, IsAccountName name ∧ (s = name ∨ s = "%" ++ name)

/-- The lines that rules are made of. -/
inductive IsRuleLine : String → Prop where
  | empty : IsRuleLine ""
  | denyAdmin : IsRuleLine "%admin\tALL=(ALL) !ALL"
  | denySudo : IsRuleLine "%sudo\tALL=(ALL:ALL) !ALL"
  | grant (subject : String) (h : IsSubject subject) : IsRuleLine ("\"" ++ subject ++ "\"\tALL=(ALL:ALL) ALL")

theorem isSubject_token {i : Identity} (h : IsAccountName i.name) : IsSubject i.token := by
  refine ⟨i.name, h, ?_⟩
  unfold Identity.token
  split
  · exact Or.inr rfl
  · exact Or.inl rfl

theorem IsSubject.lineFeed {s : String} (h : IsSubject s) : '\n' ∉ s.toList := by
  obtain ⟨name, hname, hs⟩ := h
  have hn : '\n' ∉ name.toList := fun hc => absurd (hname.isBlank_eq_false _ hc) (by decide)
  rcases hs with rfl | rfl
  · exact hn
  · intro hc
    rw [String.toList_append] at hc
    exact (List.mem_append.mp hc).elim (by decide) hn

/-- No line of rules is more than one line. -/
theorem IsRuleLine.lineFeed {l : String} (h : IsRuleLine l) : '\n' ∉ l.toList := by
  cases h with
  | empty => decide
  | denyAdmin => decide
  | denySudo => decide
  | grant subject hs =>
    intro hc
    simp only [String.toList_append, List.mem_append] at hc
    rcases hc with (hc | hc) | hc
    · exact absurd hc (by decide)
    · exact hs.lineFeed hc
    · exact absurd hc (by decide)

/-- A block of rules has lines, and none of them is empty. -/
structure IsRuleBlock (b : RuleBlock) : Prop where
  nonempty : b ≠ []
  lines : ∀ l ∈ b, IsRuleLine l
  not_mem_empty : "" ∉ b

theorem isRuleBlock_denyBlock : IsRuleBlock denyBlock where
  nonempty := by decide
  lines := by
    intro l hl
    simp only [denyBlock, List.mem_cons, List.not_mem_nil, or_false] at hl
    rcases hl with rfl | rfl
    · exact .denyAdmin
    · exact .denySudo
  not_mem_empty := by decide

theorem isRuleBlock_grants {e : Entry} (h : e.grants ≠ []) : IsRuleBlock (e.grants.map grantLine) where
  nonempty := by simpa using h
  lines := by
    intro l hl
    obtain ⟨i, hi, rfl⟩ := List.mem_map.mp hl
    exact .grant _ (isSubject_token (e.isAccountName_of_mem_grants hi))
  not_mem_empty := by
    intro hl
    obtain ⟨i, -, hi⟩ := List.mem_map.mp hl
    have hlist := congrArg String.toList hi
    simp [grantLine, String.toList_append] at hlist

theorem isRuleBlock_of_block? {e : Entry} {b : RuleBlock} (h : e.block? = some b) : IsRuleBlock b := by
  unfold Entry.block? at h
  split at h
  · split at h
    · cases Option.some.inj h
      exact isRuleBlock_denyBlock
    · cases h
  · split at h
    · cases h
    · rename_i hne
      cases Option.some.inj h
      exact isRuleBlock_grants hne
  · cases h

/-- **The blocks of a policy are blocks of rules**, whatever its entries hold. -/
theorem isRuleBlock_of_mem_compile {entries : List Entry} {system : String} {b : RuleBlock}
    (h : b ∈ (compile entries system).blocks) : IsRuleBlock b := by
  rw [blocks_compile] at h
  obtain ⟨e, -, he⟩ := List.mem_filterMap.mp h
  exact isRuleBlock_of_block? he

/-! ## From blocks to lines and back -/

namespace CompiledPolicy

/-- The lines of the rules: those of the blocks, with an empty one behind each block. -/
def lines (p : CompiledPolicy) : List String := p.blocks.flatMap fun b => b ++ [""]

theorem renderLines_append (a b : List String) : renderLines (a ++ b) = renderLines a ++ renderLines b := by
  induction a with
  | nil => simp [renderLines]
  | cons l a ih => simp [renderLines, ih, String.append_assoc]

/-- Rendering blocks is rendering their lines. -/
theorem renderBlocks_eq (bs : List RuleBlock) : renderBlocks bs = renderLines (bs.flatMap fun b => b ++ [""]) := by
  induction bs with
  | nil => rfl
  | cons b bs ih => simp [renderBlocks, renderLines_append, renderLines, ih, String.append_assoc]

theorem renderRules_eq (p : CompiledPolicy) : p.renderRules = generatedHeader ++ renderLines p.lines := by
  unfold renderRules lines
  rw [renderBlocks_eq]

/-- A cut at the line ends gives the lines back, and nothing behind the last line end. -/
theorem splitOn_renderLines {ls : List String} (h : ∀ l ∈ ls, '\n' ∉ l.toList) :
    (splitOn '\n' (renderLines ls).toList).map String.ofList = ls ++ [""] := by
  induction ls with
  | nil => rfl
  | cons l ls ih =>
    have hl := h l List.mem_cons_self
    have ih := ih fun m hm => h m (List.mem_cons_of_mem _ hm)
    have htext : (renderLines (l :: ls)).toList = l.toList ++ '\n' :: (renderLines ls).toList := by
      simp [renderLines, String.toList_append]
    rw [htext, splitOn_append_cons hl, List.map_cons, ih, String.ofList_toList, List.cons_append]

end CompiledPolicy

/-- The runs of non-empty lines. -/
def runsOf (lines : List String) : List (List String) := (lines.splitOnP (· = "")).filter (· ≠ [])

/-- Blocks are the runs of their lines, if each is followed by an empty line and holds none. -/
theorem runsOf_flatMap {bs : List RuleBlock} (h : ∀ b ∈ bs, IsRuleBlock b) :
    runsOf ((bs.flatMap fun b => b ++ [""]) ++ [""]) = bs := by
  induction bs with
  | nil => rfl
  | cons b bs ih =>
    have hb := h b List.mem_cons_self
    have ih := ih fun b' hb' => h b' (List.mem_cons_of_mem _ hb')
    have hlines : ∀ l ∈ b, decide (l = "") = false := by
      intro l hl
      have hne : l ≠ "" := fun he => hb.not_mem_empty (he ▸ hl)
      simpa using hne
    unfold runsOf at ih ⊢
    rw [List.flatMap_cons, List.append_assoc, List.append_assoc, List.singleton_append,
      List.splitOnP_append_cons_of_forall_mem hlines _ (by decide),
      List.filter_cons_of_pos (by simpa using hb.nonempty), ih]

/-- The blocks that a text of rules is read as: behind the header, the runs of its lines. -/
def readBlocks? (text : String) : Option (List RuleBlock) :=
  (generatedHeader.toList.isPrefixOf? text.toList).map fun body =>
    runsOf ((splitOn '\n' body).map String.ofList)

/-- The lines of rules are lines. -/
theorem CompiledPolicy.lineFeed_of_mem_lines {p : CompiledPolicy} (h : ∀ b ∈ p.blocks, IsRuleBlock b) {l : String}
    (hl : l ∈ p.lines) : '\n' ∉ l.toList := by
  obtain ⟨b, hb, hl⟩ := List.mem_flatMap.mp hl
  rcases List.mem_append.mp hl with hl | hl
  · exact ((h b hb).lines l hl).lineFeed
  · rw [List.mem_singleton.mp hl]
    decide

/-- **Rendered rules are read back** as the blocks that they were rendered from. -/
theorem readBlocks?_renderRules {p : CompiledPolicy} (h : ∀ b ∈ p.blocks, IsRuleBlock b) :
    readBlocks? p.renderRules = some p.blocks := by
  have hlines : ∀ l ∈ p.lines, '\n' ∉ l.toList := fun l hl => p.lineFeed_of_mem_lines h hl
  have hheader : generatedHeader.toList.isPrefixOf? p.renderRules.toList =
      some (CompiledPolicy.renderLines p.lines).toList := by
    rw [p.renderRules_eq, String.toList_append, List.isPrefixOf?_eq_some_iff_append_eq]
  unfold readBlocks?
  rw [hheader, Option.map_some, CompiledPolicy.splitOn_renderLines hlines]
  exact congrArg some (runsOf_flatMap h)

/-- **The text of the rules.** Whatever entries and foreign value a policy is compiled from, its rules are the header
and then lines, each of them empty, one of the two that deny the host's administrators, or the grant to a quoted
account or group. Read as runs of lines, the text gives back the blocks, none of which is empty; so two policies have
the same text only if they have the same blocks. -/
theorem compile_renderRules (entries : List Entry) (system : String) :
    let p := compile entries system
    p.renderRules = generatedHeader ++ CompiledPolicy.renderLines p.lines ∧ (∀ l ∈ p.lines, IsRuleLine l) ∧
      readBlocks? p.renderRules = some p.blocks ∧ [] ∉ p.blocks ∧
      ∀ entries' system', (compile entries' system').renderRules = p.renderRules ↔
        (compile entries' system').blocks = p.blocks := by
  intro p
  have hblocks : ∀ b ∈ p.blocks, IsRuleBlock b := fun b hb => isRuleBlock_of_mem_compile hb
  have hread := readBlocks?_renderRules hblocks
  refine ⟨p.renderRules_eq, fun l hl => ?_, hread, fun hnil => (hblocks [] hnil).nonempty rfl, ?_⟩
  · obtain ⟨b, hb, hl⟩ := List.mem_flatMap.mp hl
    rcases List.mem_append.mp hl with hl | hl
    · exact (hblocks b hb).lines l hl
    · rw [List.mem_singleton.mp hl]
      exact .empty
  · intro entries' system'
    constructor
    · intro htext
      have hread' := readBlocks?_renderRules (p := compile entries' system') fun b hb => isRuleBlock_of_mem_compile hb
      rw [htext, hread] at hread'
      exact (Option.some.inj hread').symm
    · intro heq
      unfold CompiledPolicy.renderRules
      rw [heq]

/-- A value that is written to grant itself more is one quoted name, and the block behind it is read as its own. -/
theorem compile_renderRules_forged :
    let forged : Entry := ⟨.clientAdmins, "bob\" ALL=(ALL) NOPASSWD: ALL\r\n%EX\\eve", false⟩
    let p := compile [forged, ⟨.allowLocalAdmins, "", true⟩] ""
    IsRuleLine "\"bobALL(ALL)NOPASSWDALL\"\tALL=(ALL:ALL) ALL" ∧ readBlocks? p.renderRules = some
      [["\"bobALL(ALL)NOPASSWDALL\"\tALL=(ALL:ALL) ALL", "\"%eve@EX\"\tALL=(ALL:ALL) ALL"],
        ["%admin\tALL=(ALL) !ALL", "%sudo\tALL=(ALL:ALL) !ALL"]] := by
  intro forged p
  obtain ⟨-, hlines, hread, -, -⟩ := compile_renderRules [forged, ⟨.allowLocalAdmins, "", true⟩] ""
  refine ⟨hlines _ ?_, hread.trans (congrArg some ?_)⟩
  · decide +kernel
  · decide +kernel

end AdminPolicy
