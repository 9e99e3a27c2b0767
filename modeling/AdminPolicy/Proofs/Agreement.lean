import AdminPolicy.Proofs.LastWord
import AdminPolicy.Proofs.Naming
import AdminPolicy.Proofs.RuleText

/-!
# The two files agree

Grants pile up in the rules and are replaced in the authorization document, and the two are written in different
dialects. Yet the texts never disagree on who is granted: the quoted subjects of the last block of grants in the rules
(`lastGrantees`), put into the other dialect (`nameOfSubject`), are the names that the document grants
(`compile_agree`).
-/

namespace AdminPolicy

open Text IdentityList

/-! ## Reading grants -/

/-- The subject that a line of rules grants everything, without its quotes. -/
def grantee? (line : String) : Option String :=
  match line.toList with
  | '"' :: rest =>
    if rest.dropWhile (· ≠ '"') = "\"\tALL=(ALL:ALL) ALL".toList then
      some (String.ofList (rest.takeWhile (· ≠ '"')))
    else none
  | _ => none

/-- The subjects that a block of rules grants everything. -/
def grantees (b : RuleBlock) : List String := b.filterMap grantee?

/-- The subjects of the last block that grants anyone everything; nobody, if there is no such block. -/
def lastGrantees (bs : List RuleBlock) : List String := ((bs.map grantees).filter (· ≠ [])).getLast?.getD []

/-- What a subject of rules is called in an authorization document. -/
def nameOfSubject (subject : String) : String :=
  match subject.toList with
  | '%' :: group => "unix-group:" ++ String.ofList group
  | _ => "unix-user:" ++ subject

def textLines (text : String) : List String := (splitOn '\n' text.toList).map String.ofList

namespace Authorization

/-- The names that a document grants. -/
def granted : Authorization → List String
  | .absent => []
  | .merged _ names | .explicitOnly names => names

/-- What a document keeps of what others have set. -/
def kept : Authorization → String
  | .merged system _ => system
  | _ => ""

end Authorization

/-! ## One identity, one line, one block -/

theorem quote_not_mem_token {i : Identity} (h : IsAccountName i.name) : '"' ∉ i.token.toList := by
  have hname : '"' ∉ i.name.toList := fun hc => h.not_mem_forbidden _ hc (by decide)
  unfold Identity.token
  split
  · rw [String.toList_append]
    exact fun hc => (List.mem_append.mp hc).elim (by decide) hname
  · exact hname

/-- A grant is read back as the token of its identity. -/
theorem grantee?_grantLine {i : Identity} (h : IsAccountName i.name) : grantee? (grantLine i) = some i.token := by
  have hline : (grantLine i).toList = '"' :: (i.token.toList ++ "\"\tALL=(ALL:ALL) ALL".toList) := by
    simp [grantLine, String.toList_append]
  have hall : ∀ c ∈ i.token.toList, decide (c ≠ '"') = true := fun c hc =>
    decide_eq_true fun he => quote_not_mem_token h (he ▸ hc)
  unfold grantee?
  rw [hline]
  simp only
  rw [List.dropWhile_append_of_pos hall, List.takeWhile_append_of_pos hall, if_pos (by decide)]
  simp

/-- No account's name begins with the mark of a group, so a token says which of the two it is. -/
theorem nameOfSubject_token {i : Identity} (h : IsAccountName i.name) :
    nameOfSubject i.token = i.authorizationName := by
  obtain ⟨name, isGroup⟩ := i
  cases isGroup with
  | true => simp [nameOfSubject, Identity.token, Identity.authorizationName]
  | false =>
    have hmark : '%' ∉ name.toList := fun hc => h.not_mem_forbidden _ hc (by decide)
    simp only [nameOfSubject, Identity.token, Identity.authorizationName, Bool.false_eq_true, ↓reduceIte]
    split
    · rename_i group hg
      exact absurd (by rw [hg]; exact List.mem_cons_self) hmark
    · rfl

theorem grantees_denyBlock : grantees denyBlock = [] := by decide

theorem grantees_map_grantLine {ids : List Identity} (h : ∀ i ∈ ids, IsAccountName i.name) :
    grantees (ids.map grantLine) = ids.map Identity.token := by
  rw [grantees, List.filterMap_map, ← List.filterMap_eq_map]
  exact List.filterMap_congr fun i hi => grantee?_grantLine (h i hi)

/-- The block of an entry grants those whom the entry grants. -/
theorem grantees_of_block? {e : Entry} {b : RuleBlock} (h : e.block? = some b) :
    grantees b = e.grants.map Identity.token := by
  have hnames : ∀ i ∈ e.grants, IsAccountName i.name := fun i hi => e.isAccountName_of_mem_grants hi
  obtain ⟨key, value, disabled⟩ := e
  cases key with
  | allowLocalAdmins =>
    cases disabled with
    | true =>
      cases Option.some.inj h
      exact grantees_denyBlock
    | false => cases h
  | clientAdmins =>
    simp only [Entry.block?] at h
    split at h
    · cases h
    · cases Option.some.inj h
      exact grantees_map_grantLine hnames
  | unknown name => cases h

/-- An entry that grants anyone has a block. -/
theorem block?_of_grants_ne_nil {e : Entry} (h : e.grants ≠ []) : e.block? = some (e.grants.map grantLine) := by
  obtain ⟨key, value, disabled⟩ := e
  cases key with
  | allowLocalAdmins => exact absurd rfl h
  | clientAdmins => simp [Entry.block?, grantLine, h]
  | unknown name => exact absurd rfl h

/-! ## All blocks -/

/-- **The last block of grants** is that of the last entry that grants anyone. -/
theorem lastGrantees_filterMap_block? (entries : List Entry) :
    lastGrantees (entries.filterMap Entry.block?) = (lastGrants entries).map Identity.token := by
  induction entries using List.reverseRecOn with
  | nil => rfl
  | append_singleton entries e ih =>
    rw [lastGrants_concat]
    by_cases hgrants : e.grants = []
    · rw [if_pos hgrants, ← ih]
      cases hb : e.block? with
      | none => simp [hb]
      | some b =>
        have hnone : grantees b = [] := by rw [grantees_of_block? hb, hgrants]; rfl
        simp [lastGrantees, hb, hnone]
    · have hb := block?_of_grants_ne_nil hgrants
      have hsome : grantees (e.grants.map grantLine) = e.grants.map Identity.token := grantees_of_block? hb
      rw [if_neg hgrants]
      simp [lastGrantees, hb, hsome, hgrants]

theorem granted_compile (entries : List Entry) (system : String) :
    (compile entries system).authorization.granted = grantedNames entries := by
  rcases authorization_compile entries system with ⟨ha, hg⟩ | ⟨ha, -⟩ | ha
  · rw [ha]
    exact hg.symm
  · rw [ha]
    rfl
  · rw [ha]
    rfl

/-- Where only the granted ones are administrators, some block denies the host's own. -/
theorem denyBlock_mem_of_explicitOnly {entries : List Entry} {system : String} {names : List String}
    (h : (compile entries system).authorization = .explicitOnly names) :
    denyBlock ∈ entries.filterMap Entry.block? := by
  have hrevoked : (lastLocalAdmins? entries).any (·.disabled) = true := by
    rw [authorization_eq] at h
    by_contra hkept
    rw [Bool.not_eq_true] at hkept
    rw [hkept] at h
    cases hc : lastGranting? entries <;> simp [hc] at h
  obtain ⟨a, ha, hdisabled⟩ := (Option.any_eq_true _ _).mp hrevoked
  obtain ⟨hmem, hkey⟩ := List.mem_filter.mp (List.mem_of_getLast? ha)
  refine List.mem_filterMap.mpr ⟨a, hmem, ?_⟩
  simp [Entry.block?, denyBlock, of_decide_eq_true hkey, hdisabled]

/-! ## Lines of the text -/

/-- The lines of the comment that every generated file begins with. -/
def headerLines : List String :=
  ["# This file is managed by privguard.", "# Do not edit this file manually.", "# Any changes will be overwritten.",
    ""]

theorem renderLines_headerLines : CompiledPolicy.renderLines headerLines = generatedHeader := by decide +kernel

/-- The lines of rendered rules: those of the comment, those of the rules, and nothing behind the last line end. -/
theorem textLines_renderRules {p : CompiledPolicy} (h : ∀ b ∈ p.blocks, IsRuleBlock b) :
    textLines p.renderRules = headerLines ++ p.lines ++ [""] := by
  have hheader : ∀ l ∈ headerLines, '\n' ∉ l.toList := by decide
  rw [textLines, p.renderRules_eq, ← renderLines_headerLines, ← CompiledPolicy.renderLines_append]
  refine CompiledPolicy.splitOn_renderLines fun l hl => ?_
  rcases List.mem_append.mp hl with hl | hl
  · exact hheader l hl
  · exact p.lineFeed_of_mem_lines h hl

/-- A line of the text is one of a block, or it grants nobody anything. -/
theorem mem_block_or_grantee?_eq_none {p : CompiledPolicy} (h : ∀ b ∈ p.blocks, IsRuleBlock b) {l : String}
    (hl : l ∈ textLines p.renderRules) : (∃ b ∈ p.blocks, l ∈ b) ∨ grantee? l = none := by
  have hheader : ∀ l ∈ headerLines, grantee? l = none := by decide
  have hempty : ∀ {l : String}, l ∈ [""] → grantee? l = none := fun hl => List.mem_singleton.mp hl ▸ by decide
  rw [textLines_renderRules h] at hl
  rcases List.mem_append.mp hl with hl | hl
  · rcases List.mem_append.mp hl with hl | hl
    · exact Or.inr (hheader l hl)
    · obtain ⟨b, hb, hl⟩ := List.mem_flatMap.mp hl
      exact (List.mem_append.mp hl).imp (fun hl => ⟨b, hb, hl⟩) hempty
  · exact Or.inr (hempty hl)

theorem mem_textLines_of_mem_block {p : CompiledPolicy} (h : ∀ b ∈ p.blocks, IsRuleBlock b) {b : RuleBlock}
    (hb : b ∈ p.blocks) {l : String} (hl : l ∈ b) : l ∈ textLines p.renderRules := by
  have hlines : l ∈ p.lines := List.mem_flatMap.mpr ⟨b, hb, List.mem_append_left _ hl⟩
  rw [textLines_renderRules h]
  exact List.mem_append_left _ (List.mem_append_right _ hlines)

/-- If the last grants are of nobody, no line of the text grants anyone anything. -/
theorem grantee?_eq_none_of_lastGrants {entries : List Entry} {system : String} (hnone : lastGrants entries = [])
    {l : String} (hl : l ∈ textLines (compile entries system).renderRules) : grantee? l = none := by
  rcases mem_block_or_grantee?_eq_none (fun b hb => isRuleBlock_of_mem_compile hb) hl with ⟨b, hb, hlb⟩ | h
  · rw [blocks_compile] at hb
    obtain ⟨e, he, hblock⟩ := List.mem_filterMap.mp hb
    have hgrants : e.grants = [] := by
      have hall := List.getLast?_eq_none_iff.mp ((lastGrants_eq_nil_iff entries).mp hnone)
      simpa using List.filter_eq_nil_iff.mp hall e he
    have hread : grantees b = [] := by rw [grantees_of_block? hblock, hgrants]; rfl
    exact List.filterMap_eq_nil_iff.mp hread l hlb
  · exact h

/-- Those whom the document grants have a line of their own in the rules. -/
theorem grantLine_mem_textLines {entries : List Entry} {system : String} {i : Identity} (hi : i ∈ lastGrants entries) :
    grantLine i ∈ textLines (compile entries system).renderRules := by
  rw [lastGrants_eq] at hi
  cases hc : lastGranting? entries with
  | none => simp [hc] at hi
  | some c =>
    have hi : i ∈ c.grants := by simpa [hc] using hi
    have hmem := (List.mem_filter.mp (List.mem_of_getLast? hc)).1
    refine mem_textLines_of_mem_block (b := c.grants.map grantLine) (fun b hb => isRuleBlock_of_mem_compile hb) ?_
      (List.mem_map_of_mem hi)
    rw [blocks_compile]
    exact List.mem_filterMap.mpr ⟨c, hmem, block?_of_grants_ne_nil (grants_ne_nil_of_lastGranting? hc)⟩

/-! ## Both texts -/

/-- The text of a document lists what it keeps of others and then the granted names. -/
theorem listed_of_render? {entries : List Entry} {system document : String}
    (h : (compile entries system).authorization.render? = some document) :
    ∃ ids, document = generatedHeader ++ "[Configuration]\nAdminIdentities=" ++ ids ++ "\n" ∧
      listed ids = listed (compile entries system).authorization.kept ++
        (compile entries system).authorization.granted := by
  obtain ⟨ids, hids, rfl⟩ := Option.map_eq_some_iff.mp h
  refine ⟨ids, ?_, ?_⟩
  · simp [Authorization.sectionName, Authorization.keyName, String.append_assoc]
  · rcases listed_adminIdentities hids with ⟨ha, hl⟩ | ⟨ha, hl⟩
    · rw [ha, hl]
      rfl
    · rw [ha, hl]
      rfl

/-- **The two files agree.** Whatever entries and foreign value a policy is compiled from, the blocks that its rules
are read as say the same as its document: the subjects of the last block of grants are the granted names, in the other
dialect and in the same order. If no names are granted, no line of the rules is a grant; if only granted ones are
administrators, a block denies the host's own; and each granted name is that of an identity with a line of its own.
The text of the document lists what it keeps of others, and behind it the granted names. -/
theorem compile_agree (entries : List Entry) (system : String) :
    let p := compile entries system
    ∃ blocks, readBlocks? p.renderRules = some blocks ∧
      (lastGrantees blocks).map nameOfSubject = p.authorization.granted ∧
      (p.authorization.granted = [] → ∀ l ∈ textLines p.renderRules, grantee? l = none) ∧
      (∀ names, p.authorization = .explicitOnly names → denyBlock ∈ blocks) ∧
      (∀ n ∈ p.authorization.granted, ∃ i : Identity, i.authorizationName = n ∧
        grantLine i ∈ textLines p.renderRules) ∧
      ∀ document, p.authorization.render? = some document →
        ∃ ids, document = generatedHeader ++ "[Configuration]\nAdminIdentities=" ++ ids ++ "\n" ∧
          listed ids = listed p.authorization.kept ++ p.authorization.granted := by
  intro p
  have hgranted : p.authorization.granted = (lastGrants entries).map Identity.authorizationName :=
    granted_compile entries system
  have hblocks : p.blocks = entries.filterMap Entry.block? := blocks_compile entries system
  refine ⟨p.blocks, readBlocks?_renderRules fun b hb => isRuleBlock_of_mem_compile hb, ?_, fun hnone l hl => ?_,
    fun names hnames => ?_, fun n hn => ?_, fun document h => listed_of_render? h⟩
  · rw [hblocks, lastGrantees_filterMap_block?, hgranted, List.map_map]
    exact List.map_congr_left fun i hi => nameOfSubject_token (isAccountName_of_mem_lastGrants hi)
  · rw [hgranted, List.map_eq_nil_iff] at hnone
    exact grantee?_eq_none_of_lastGrants hnone hl
  · rw [hblocks]
    exact denyBlock_mem_of_explicitOnly hnames
  · rw [hgranted] at hn
    obtain ⟨i, hi, rfl⟩ := List.mem_map.mp hn
    exact ⟨i, rfl, grantLine_mem_textLines hi⟩

/-- Later grants replace earlier ones in the document, and follow them in the rules. -/
theorem compile_agree_replaced :
    let entries : List Entry :=
      [⟨.clientAdmins, "alice", false⟩, ⟨.allowLocalAdmins, "", true⟩, ⟨.clientAdmins, "EX\\bob,%ops", false⟩,
        ⟨.clientAdmins, "carol", true⟩]
    let p := compile entries "unix-group:wheel"
    p.authorization = .explicitOnly ["unix-user:bob@EX", "unix-group:ops"] ∧
      ∃ blocks, readBlocks? p.renderRules = some blocks ∧ denyBlock ∈ blocks ∧
        (lastGrantees blocks).map nameOfSubject = ["unix-user:bob@EX", "unix-group:ops"] := by
  intro entries p
  have hp : p.authorization = .explicitOnly ["unix-user:bob@EX", "unix-group:ops"] := by decide +kernel
  obtain ⟨blocks, hread, hlast, -, hdeny, -⟩ := compile_agree entries "unix-group:wheel"
  refine ⟨hp, blocks, hread, hdeny _ hp, hlast.trans ?_⟩
  exact congrArg Authorization.granted hp

end AdminPolicy
