import Mathlib
import McpGateway.PyText
import McpGateway.PyDict
import McpGateway.JsonValue
import McpGateway.GatewaySettings
import McpGateway.PyRuntime

/-!
# The cache of manifests and tool results

A store keeps values with their expiry; reading an expired entry deletes it.
Results are keyed by qualified tool name and a digest of the arguments, and a
tool without a positive lifetime is neither stored nor looked up.
-/

namespace McpGateway.ResultCache

open PyText PyDict JsonValue GatewaySettings PyRuntime

/-- A value with its expiry. -/
structure CacheEntry (ν : Type) where
  /-- Stored value. -/
  value : ν
  /-- Last moment at which it is returned. -/
  expiresAt : ℚ

/-- `TTLStore`. -/
structure TTLStore (ν : Type) where
  /-- `_store`. -/
  entries : Dict String (CacheEntry ν) := Dict.empty

namespace TTLStore

variable {ν : Type}

/-- `get`: an expired entry is deleted. -/
def get (store : TTLStore ν) (key : String) (now : ℚ) : TTLStore ν×Option ν :=
  match store.entries.get? key with
  | none => (store,none)
  | some entry =>
    if entry.expiresAt<now then (⟨store.entries.pop key⟩,none) else (store,some entry.value)

/-- `set`: a lifetime that is not positive stores nothing. -/
def set (store : TTLStore ν) (key : String) (value : ν) (ttl now : ℚ) : TTLStore ν :=
  if ttl≤0 then store else ⟨store.entries.set key ⟨value,now+ttl⟩⟩

/-- `delete`. -/
def delete (store : TTLStore ν) (key : String) : TTLStore ν := ⟨store.entries.pop key⟩

/-- `clear`. -/
def clear (_ : TTLStore ν) : TTLStore ν := {}

/-- What is returned was stored and has not expired. -/
theorem get_some {store : TTLStore ν} {key : String} {now : ℚ} {v : ν}
    (h : (store.get key now).2=some v) :
    ∃ entry, store.entries.get? key=some entry ∧ entry.value=v ∧ now≤entry.expiresAt := by
  unfold get at h
  cases hg : store.entries.get? key with
  | none => rw [hg] at h; cases h
  | some entry =>
    rw [hg] at h
    dsimp only at h
    split at h
    · cases h
    · rename_i hlt
      cases h
      exact ⟨entry,rfl,rfl,not_lt.mp hlt⟩

/-- Reading never adds an entry. -/
theorem get_entries {store : TTLStore ν} {key other : String} {now : ℚ} {entry : CacheEntry ν}
    (h : (store.get key now).1.entries.get? other=some entry) :
    store.entries.get? other=some entry := by
  unfold get at h
  cases hg : store.entries.get? key with
  | none => rw [hg] at h; exact h
  | some e =>
    rw [hg] at h
    dsimp only at h
    split at h
    · rw [Dict.get?_pop] at h
      split at h
      · cases h
      · exact h
    · exact h

/-- After storing, an entry is the new one or was there before. -/
theorem set_entries {store : TTLStore ν} {key other : String} {value : ν} {ttl now : ℚ}
    {entry : CacheEntry ν} (h : (store.set key value ttl now).entries.get? other=some entry) :
    store.entries.get? other=some entry ∨ (key=other ∧ 0<ttl ∧ entry=⟨value,now+ttl⟩) := by
  unfold set at h
  split at h
  · exact Or.inl h
  · rename_i hpos
    rw [Dict.get?_set] at h
    split at h
    · rename_i hk
      exact Or.inr ⟨hk,not_le.mp hpos,(Option.some.inj h).symm⟩
    · exact Or.inl h

end TTLStore

/-- The cache of one orchestrator; manifests are of any type. -/
structure ToolCache (μ : Type) where
  /-- Settings. -/
  cfg : CacheConfig
  /-- `_manifest_store`. -/
  manifestStore : TTLStore μ := {}
  /-- `_result_store`. -/
  resultStore : TTLStore Json := {}

/-- `_args_hash`. -/
def argsHash (rt : Runtime) (arguments : Json) : String :=
  takeChars (rt.sha256 (arguments.dumps rt.reprFloat)) 20

namespace ToolCache

variable {μ : Type}

/-- `MANIFEST_KEY`. -/
def manifestKey : String := "__manifest__"

/-- `get_manifest`. -/
def getManifest (cache : ToolCache μ) (now : ℚ) : ToolCache μ×Option μ :=
  if cache.cfg.enabled=false ∨ cache.cfg.manifestTtl≤0 then (cache,none)
  else
    let found := cache.manifestStore.get manifestKey now
    ({cache with manifestStore := found.1},found.2)

/-- `set_manifest`. -/
def setManifest (cache : ToolCache μ) (manifest : μ) (now : ℚ) : ToolCache μ :=
  if cache.cfg.enabled=false ∨ cache.cfg.manifestTtl≤0 then cache
  else {cache with
    manifestStore := cache.manifestStore.set manifestKey manifest cache.cfg.manifestTtl now}

/-- `invalidate_manifest`. -/
def invalidateManifest (cache : ToolCache μ) : ToolCache μ :=
  {cache with manifestStore := cache.manifestStore.delete manifestKey}

/-- `_tool_ttl`. -/
def toolTtl (cache : ToolCache μ) (qualifiedName : String) : ℚ :=
  if cache.cfg.toolResultsEnabled=false then 0
  else (cache.cfg.toolTtls.get? qualifiedName).getD cache.cfg.defaultToolTtl

/-- `_result_key`. -/
def resultKey (rt : Runtime) (qualifiedName : String) (arguments : Json) : String :=
  qualifiedName++":"++argsHash rt arguments

/-- `get_result`. A stored `None` cannot be told from a missing entry. -/
def getResult (rt : Runtime) (cache : ToolCache μ) (qualifiedName : String) (arguments : Json)
    (now : ℚ) : ToolCache μ×Option Json :=
  if cache.cfg.enabled=false ∨ cache.toolTtl qualifiedName≤0 then (cache,none)
  else
    let found := cache.resultStore.get (resultKey rt qualifiedName arguments) now
    ({cache with resultStore := found.1},found.2.filter (fun v => decide (v≠.null)))

/-- `set_result`. -/
def setResult (rt : Runtime) (cache : ToolCache μ) (qualifiedName : String)
    (arguments result : Json) (now : ℚ) : ToolCache μ :=
  if cache.cfg.enabled=false ∨ cache.toolTtl qualifiedName≤0 then cache
  else {cache with
    resultStore := cache.resultStore.set (resultKey rt qualifiedName arguments) result
      (cache.toolTtl qualifiedName) now}

/-- A lookup keeps the settings. -/
theorem getResult_cfg (rt : Runtime) (cache : ToolCache μ) (q : String) (a : Json) (now : ℚ) :
    (cache.getResult rt q a now).1.cfg=cache.cfg := by
  unfold getResult
  dsimp only
  split <;> rfl

/-- A lookup adds no result. -/
theorem getResult_entries {rt : Runtime} {cache : ToolCache μ} {q key : String} {a : Json}
    {now : ℚ} {entry : CacheEntry Json}
    (h : (cache.getResult rt q a now).1.resultStore.entries.get? key=some entry) :
    cache.resultStore.entries.get? key=some entry := by
  unfold getResult at h
  dsimp only at h
  split at h
  · exact h
  · exact TTLStore.get_entries h

/-- A result found was stored under the key of the tool and arguments and has
not expired. -/
theorem getResult_some {rt : Runtime} {cache : ToolCache μ} {q : String} {a v : Json} {now : ℚ}
    (h : (cache.getResult rt q a now).2=some v) :
    ∃ entry, cache.resultStore.entries.get? (resultKey rt q a)=some entry ∧ entry.value=v ∧
      now≤entry.expiresAt := by
  unfold getResult at h
  dsimp only at h
  split at h
  · cases h
  · obtain ⟨hfound,-⟩ := Option.filter_eq_some_iff.mp h
    exact TTLStore.get_some hfound

/-- Equal result keys have equal qualified names and digests, whatever
characters the names contain. -/
theorem resultKey_inj (rt : Runtime) {q q' : String} {a a' : Json}
    (h : resultKey rt q a=resultKey rt q' a') : q=q' ∧ argsHash rt a=argsHash rt a' := by
  have hlen : ∀ v : Json, (argsHash rt v).toList.length=20 := by
    intro v
    have h64 := rt.sha256_length (v.dumps rt.reprFloat)
    rw [argsHash,takeChars,String.toList_ofList,List.length_take,String.length_toList,h64]
    rfl
  have hl := congrArg String.toList h
  simp only [resultKey,String.toList_append] at hl
  have hsplit := List.append_inj' hl (by rw [hlen,hlen])
  have hq := List.append_inj' hsplit.1 rfl
  exact ⟨String.toList_inj.mp hq.1,String.toList_inj.mp hsplit.2⟩

end ToolCache

end McpGateway.ResultCache
