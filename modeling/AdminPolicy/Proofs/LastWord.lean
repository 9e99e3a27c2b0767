import AdminPolicy.Proofs.Compilation
import Mathlib.Data.List.Basic

/-!
# The last word

Two questions are each decided by one entry: whether the host's administrators keep their rights, by the last entry
about them (`lastLocalAdmins?`), and whom the authorization document grants, by the last entry that grants anyone
(`lastGranting?`). `authorization_eq` reads the authorization off these two. So entries that are neither have no say
wherever they stand, and how the entries about the one question stand among those about the other only decides the
order of the blocks (`compile_lastWord`).
-/

namespace AdminPolicy

/-- The last entry about the host's own administrators. -/
def lastLocalAdmins? (entries : List Entry) : Option Entry :=
  (entries.filter fun e => e.key = .allowLocalAdmins).getLast?

/-- The last entry that grants anyone. -/
def lastGranting? (entries : List Entry) : Option Entry := (entries.filter fun e => e.grants ≠ []).getLast?

/-- An entry without a say: its key means nothing here, or it is to grant rights but is disabled or names nobody. -/
def Entry.IsIdle (e : Entry) : Prop :=
  match e.key with
  | .allowLocalAdmins => False
  | .clientAdmins => e.disabled = true ∨ IdentityList.identities e.value = []
  | .unknown _ => True

instance : DecidablePred Entry.IsIdle := fun e => by
  unfold Entry.IsIdle
  split <;> infer_instance

/-! ## The two entries that decide -/

/-- What becomes of the last entry of a kind when an entry follows. -/
theorem getLast?_filter_concat {α : Type} (p : α → Bool) (l : List α) (x : α) :
    ((l ++ [x]).filter p).getLast? = if p x then some x else (l.filter p).getLast? := by
  by_cases h : p x <;> simp [h]

/-- The host's administrators have lost their rights if the last entry about them is disabled. -/
theorem Draft.localAdmins_foldl (entries : List Entry) :
    (entries.foldl add {}).localAdmins = !(lastLocalAdmins? entries).any (·.disabled) := by
  induction entries using List.reverseRecOn with
  | nil => rfl
  | append_singleton entries e ih =>
    rw [List.foldl_append, List.foldl_cons, List.foldl_nil, lastLocalAdmins?, getLast?_filter_concat]
    obtain ⟨key, value, disabled⟩ := e
    cases key with
    | allowLocalAdmins => cases disabled <;> simp [add]
    | clientAdmins =>
      rw [if_neg (by simp), ← lastLocalAdmins?, ← ih]
      cases disabled with
      | true => rfl
      | false => cases h : IdentityList.identities value <;> simp [add, h]
    | unknown name =>
      rw [if_neg (by simp), ← lastLocalAdmins?, ← ih]
      rfl

theorem lastGrants_eq (entries : List Entry) :
    lastGrants entries = ((lastGranting? entries).map Entry.grants).getD [] := by
  rw [lastGrants, lastGranting?, List.filter_map, List.getLast?_map]
  rfl

theorem grants_ne_nil_of_lastGranting? {entries : List Entry} {c : Entry} (h : lastGranting? entries = some c) :
    c.grants ≠ [] := by
  have hmem := List.mem_of_getLast? h
  simpa using (List.mem_filter.mp hmem).2

/-- Nobody is granted anything just if no entry grants anyone. -/
theorem lastGrants_eq_nil_iff (entries : List Entry) : lastGrants entries = [] ↔ lastGranting? entries = none := by
  rw [lastGrants_eq]
  cases h : lastGranting? entries with
  | none => simp
  | some c => simpa using grants_ne_nil_of_lastGranting? h

/-- **The authorization of a policy** is decided by the last entry about the host's administrators and the last that
grants anyone. -/
theorem authorization_eq (entries : List Entry) (system : String) : (compile entries system).authorization =
    match (lastLocalAdmins? entries).any (·.disabled), lastGranting? entries with
    | false, none => .absent
    | false, some c => .merged system (c.grants.map Identity.authorizationName)
    | true, none => .explicitOnly []
    | true, some c => .explicitOnly (c.grants.map Identity.authorizationName) := by
  have hlocal := Draft.localAdmins_foldl entries
  have hgranted := Draft.granted?_foldl entries
  rw [lastGrants_eq] at hgranted
  unfold compile Draft.authorization
  dsimp only
  rw [hlocal, hgranted]
  cases hc : lastGranting? entries with
  | none => cases (lastLocalAdmins? entries).any (·.disabled) <;> rfl
  | some c =>
    have hne := grants_ne_nil_of_lastGranting? hc
    cases (lastLocalAdmins? entries).any (·.disabled) <;> simp [hne]

/-! ## Entries without a say -/

theorem Entry.IsIdle.grants_eq_nil {e : Entry} (h : e.IsIdle) : e.grants = [] := by
  obtain ⟨key, value, disabled⟩ := e
  cases key with
  | allowLocalAdmins => exact absurd h id
  | clientAdmins =>
    cases disabled with
    | true => rfl
    | false => exact Or.resolve_left h (by simp)
  | unknown name => rfl

/-- An entry without a say changes no draft. -/
theorem Draft.add_of_isIdle {e : Entry} (h : e.IsIdle) (d : Draft) : d.add e = d := by
  have hgrants := h.grants_eq_nil
  obtain ⟨key, value, disabled⟩ := e
  cases key with
  | allowLocalAdmins => exact absurd h id
  | clientAdmins =>
    cases disabled with
    | true => rfl
    | false =>
      have hids : IdentityList.identities value = [] := hgrants
      simp [add, hids]
  | unknown name => rfl

theorem Draft.foldl_filter_not_isIdle (entries : List Entry) (d : Draft) :
    (entries.filter fun e => ¬ e.IsIdle).foldl add d = entries.foldl add d := by
  induction entries generalizing d with
  | nil => rfl
  | cons e entries ih =>
    by_cases h : e.IsIdle
    · rw [List.filter_cons_of_neg (by simpa using h), ih, List.foldl_cons, add_of_isIdle h]
    · rw [List.filter_cons_of_pos (by simpa using h), List.foldl_cons, List.foldl_cons, ih]

/-- Only the entries with a say count. -/
theorem compile_filter_not_isIdle (entries : List Entry) (system : String) :
    compile (entries.filter fun e => ¬ e.IsIdle) system = compile entries system := by
  unfold compile
  rw [Draft.foldl_filter_not_isIdle]

/-! ## Blocks of the two kinds -/

/-- Apart from the entries about the host's administrators, those with a block are those that grant anyone. -/
theorem filterMap_block?_filter_ne (entries : List Entry) :
    (entries.filter fun e => e.key ≠ .allowLocalAdmins).filterMap Entry.block? =
      (entries.filter fun e => e.grants ≠ []).filterMap Entry.block? := by
  rw [List.filterMap_filter, List.filterMap_filter]
  refine List.filterMap_congr fun e _ => ?_
  obtain ⟨key, value, disabled⟩ := e
  cases key with
  | allowLocalAdmins => simp [Entry.grants]
  | clientAdmins => by_cases h : (Entry.mk .clientAdmins value disabled).grants = [] <;> simp [h, Entry.block?]
  | unknown name => simp [Entry.block?]

/-- The blocks of a policy, those that deny before those that grant. -/
theorem blocks_compile_perm (entries : List Entry) (system : String) : (compile entries system).blocks.Perm
    ((entries.filter fun e => e.key = .allowLocalAdmins).filterMap Entry.block? ++
      (entries.filter fun e => e.grants ≠ []).filterMap Entry.block?) := by
  rw [blocks_compile, ← filterMap_block?_filter_ne, ← List.filterMap_append]
  refine List.Perm.filterMap _ ?_
  simpa using (List.filter_append_perm (fun e : Entry => decide (e.key = .allowLocalAdmins)) entries).symm

/-- **The last word.** The blocks of a policy are those of its entries, in order. There is no authorization document
just if the host's administrators were not revoked by the last entry about them and no entry grants anyone; else the
document grants those of the last entry that grants anyone, behind what others have set if the administrators were
not revoked, and alone if they were. Entries without a say may be put in or left out anywhere. With the same entries
about the host's administrators and the same that grant anyone, each in order, the authorization is the same and so
are the blocks, up to their order. -/
theorem compile_lastWord (entries : List Entry) (system : String) :
    let p := compile entries system
    let revoked := ∃ a, lastLocalAdmins? entries = some a ∧ a.disabled = true
    p.blocks = entries.filterMap Entry.block? ∧
      (p.authorization = .absent ↔ ¬ revoked ∧ lastGranting? entries = none) ∧
      (∀ s names, p.authorization = .merged s names ↔ ¬ revoked ∧ s = system ∧
        ∃ c, lastGranting? entries = some c ∧ names = c.grants.map Identity.authorizationName) ∧
      (∀ names, p.authorization = .explicitOnly names ↔ revoked ∧
        names = ((lastGranting? entries).map Entry.grants |>.getD []).map Identity.authorizationName) ∧
      (∀ entries', (entries'.filter fun e => ¬ e.IsIdle) = (entries.filter fun e => ¬ e.IsIdle) →
        compile entries' system = p) ∧
      ∀ entries', (entries'.filter fun e => e.key = .allowLocalAdmins) =
          (entries.filter fun e => e.key = .allowLocalAdmins) →
        (entries'.filter fun e => e.grants ≠ []) = (entries.filter fun e => e.grants ≠ []) →
        (compile entries' system).authorization = p.authorization ∧ (compile entries' system).blocks.Perm p.blocks := by
  intro p revoked
  have hp : p.authorization = _ := authorization_eq entries system
  have hrevoked : revoked ↔ (lastLocalAdmins? entries).any (·.disabled) = true := by
    simp [revoked, Option.any_eq_true]
  refine ⟨blocks_compile entries system, ?_, fun s names => ?_, fun names => ?_, fun entries' h => ?_,
    fun entries' hlocal hgranting => ⟨?_, ?_⟩⟩
  · rw [hp, hrevoked]
    cases (lastLocalAdmins? entries).any (·.disabled) <;> cases lastGranting? entries <;> simp
  · rw [hp, hrevoked]
    cases (lastLocalAdmins? entries).any (·.disabled) <;> cases lastGranting? entries <;> simp [eq_comm]
  · rw [hp, hrevoked]
    cases (lastLocalAdmins? entries).any (·.disabled) <;> cases lastGranting? entries <;> simp [eq_comm]
  · calc compile entries' system
        = compile (entries'.filter fun e => ¬ e.IsIdle) system := (compile_filter_not_isIdle _ _).symm
      _ = compile (entries.filter fun e => ¬ e.IsIdle) system := by rw [h]
      _ = p := compile_filter_not_isIdle _ _
  · rw [hp, authorization_eq, lastLocalAdmins?, lastGranting?, hlocal, hgranting]
    rfl
  · refine (blocks_compile_perm entries' system).trans ?_
    rw [hlocal, hgranting]
    exact (blocks_compile_perm entries system).symm

/-- Four entries decide: the first grants of all are replaced, the host's administrators are revoked and restored, and
each leaves its block but the last. Behind them grants of nobody, disabled grants and a key that means nothing change nothing. -/
theorem compile_lastWord_restored :
    let deciding : List Entry :=
      [⟨.clientAdmins, "alice", false⟩, ⟨.allowLocalAdmins, "", true⟩, ⟨.clientAdmins, "%EX\\ops\nbob,bob", false⟩,
        ⟨.allowLocalAdmins, "", false⟩]
    let idle : List Entry :=
      [⟨.clientAdmins, " ,", false⟩, ⟨.clientAdmins, "carol", true⟩, ⟨.unknown "future-key", "dave", false⟩]
    compile (deciding ++ idle) "unix-group:wheel" = compile deciding "unix-group:wheel" ∧
      (compile deciding "unix-group:wheel").blocks =
        [["\"alice\"\tALL=(ALL:ALL) ALL"], ["%admin\tALL=(ALL) !ALL", "%sudo\tALL=(ALL:ALL) !ALL"],
          ["\"%ops@EX\"\tALL=(ALL:ALL) ALL", "\"bob\"\tALL=(ALL:ALL) ALL", "\"bob\"\tALL=(ALL:ALL) ALL"]] ∧
      (compile deciding "unix-group:wheel").authorization =
        .merged "unix-group:wheel" ["unix-group:ops@EX", "unix-user:bob", "unix-user:bob"] := by
  intro deciding idle
  obtain ⟨hblocks, -, hmerged, -, hidle, -⟩ := compile_lastWord deciding "unix-group:wheel"
  refine ⟨hidle _ (by decide +kernel), hblocks.trans (by decide +kernel), (hmerged _ _).mpr ⟨?_, rfl, ⟨.clientAdmins, "%EX\\ops\nbob,bob", false⟩, ?_⟩⟩
  · rintro ⟨a, ha, hdisabled⟩
    have hlast : lastLocalAdmins? deciding = some ⟨.allowLocalAdmins, "", false⟩ := by decide +kernel
    cases Option.some.inj (hlast.symm.trans ha)
    cases hdisabled
  · decide +kernel

end AdminPolicy
