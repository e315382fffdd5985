import TokiSync.FirstEntries
import TokiSync.UsageAggregation
import Std.Data.ExtTreeMap.Lemmas

/-!
# Prices taken from a list

The price list is an object with one entry for each model of each provider.
Its entries are read into a hash map, and the prices of the supported providers
are entered under the names without prefixes, where the first one met stays.
Each process iterates the map in an order of its own. All processes price
models alike if and only if the entries that come to one name have one price.
-/

namespace TokiSync.PriceLists

open TokiSync.FirstEntries TokiSync.UsageAggregation

/-- What is read of an entry of the list. -/
structure LiteLLMEntry (F : Type) where
  /-- Provider, if any. -/
  litellmProvider : Option String
  /-- Input rate, if any. -/
  inputCostPerToken : Option F
  /-- Output rate, if any. -/
  outputCostPerToken : Option F
  /-- Rate of cache writes, if any. -/
  cacheCreationInputTokenCost : Option F
  /-- Rate of cached input, if any. -/
  cacheReadInputTokenCost : Option F

/-- Providers whose prices are taken. -/
def supportedLitellmProviders : List String := ["anthropic","openai","gemini"]

/-- The name of a model: what follows the last slash of its key. -/
def modelName (key : String) : String :=
  if '/'∈key.toList then
    String.ofList (key.toList.reverse.takeWhile (· ≠ '/')).reverse
  else key

/-- The entries of a list by their keys. -/
abbrev RawPrices (F : Type) := Std.ExtTreeMap String (LiteLLMEntry F)

/-- The order in which a process iterates each map. -/
structure Iteration (F : Type) where
  /-- The entries of a map in their order. -/
  entries : RawPrices F → List (String×LiteLLMEntry F)
  /-- Every entry is met, once. -/
  perm : ∀ raw, (entries raw).Perm raw.toList

section

variable {F : Type} [Zero F] [LT F] [DecidableLT F]

/-- The name and price that an entry gives, if it is taken. -/
def pricedModel (item : String×LiteLLMEntry F) : Option (String×ModelPricing F) :=
  match item.2.inputCostPerToken,item.2.outputCostPerToken with
  | some inputCost,some outputCost =>
    if 0< inputCost ∨ 0<outputCost then
      let pricing : ModelPricing F :=
        ⟨inputCost,outputCost,item.2.cacheCreationInputTokenCost,item.2.cacheReadInputTokenCost⟩
      match item.2.litellmProvider with
      | none => none
      | some provider =>
        if provider∉ supportedLitellmProviders then none
        else if modelName item.1="" then none
        else some (modelName item.1,pricing)
    else none
  | _,_ => none

/-- The prices of a list, none when it cannot be read. -/
def parseLitellmJson (fromStr : String → Option (RawPrices F)) (iteration : Iteration F)
    (json : String) : PricingTable F :=
  match fromStr json with
  | none => ⟨fun _ => none⟩
  | some raw => ⟨firstEntries pricedModel (iteration.entries raw)⟩

/-- Entries that come to one name have one price. -/
def PricedAlike (raw : RawPrices F) : Prop :=
  ∀ (key key' : String) (entry entry' : LiteLLMEntry F), raw[key]?=some entry →
    raw[key']?=some entry' → ∀ taken∈pricedModel (key,entry), ∀ taken'∈pricedModel (key',entry'),
      taken.1=taken'.1 → taken.2=taken'.2

variable {fromStr : String → Option (RawPrices F)} {raw : RawPrices F} {json : String}

omit [Zero F] [LT F] [DecidableLT F] in
/-- Any order of the entries is the order of some process. -/
theorem exists_iteration {order : List (String×LiteLLMEntry F)} (h : order.Perm raw.toList) :
    ∃ iteration : Iteration F, iteration.entries raw=order := by
  classical
  refine ⟨⟨fun other => if other=raw then order else other.toList,fun other => ?_⟩,if_pos rfl⟩
  split_ifs with hsame
  · rw [hsame]
    exact h
  · exact .refl _

theorem pricedAlike_iff : PricedAlike raw ↔ OneValued pricedModel raw.toList := by
  constructor
  · intro h a ha b hb
    exact h a.1 b.1 a.2 b.2 (Std.ExtTreeMap.mem_toList_iff_getElem?_eq_some.mp ha)
      (Std.ExtTreeMap.mem_toList_iff_getElem?_eq_some.mp hb)
  · intro h key key' entry entry' hentry hentry'
    exact h (key,entry) (Std.ExtTreeMap.mem_toList_iff_getElem?_eq_some.mpr hentry) (key',entry')
      (Std.ExtTreeMap.mem_toList_iff_getElem?_eq_some.mpr hentry')

/-- Some process prices a name by any entry that comes to it. -/
theorem exists_prices {key name : String} {entry : LiteLLMEntry F} {price : ModelPricing F}
    (hraw : fromStr json=some raw) (hentry : raw[key]?=some entry)
    (htaken : pricedModel (key,entry)=some (name,price)) :
    ∃ iteration : Iteration F,
      (parseLitellmJson fromStr iteration json).prices name=some price := by
  obtain ⟨order,hperm,hfirst⟩ :=
    exists_first (Std.ExtTreeMap.mem_toList_iff_getElem?_eq_some.mpr hentry) htaken
  obtain ⟨iteration,hiteration⟩ := exists_iteration hperm
  refine ⟨iteration,?_⟩
  rw [parseLitellmJson,hraw]
  dsimp only
  rw [hiteration,hfirst]

/-- When entries that come to one name have one price, every process makes one
table. -/
theorem parse_eq (h : ∀ raw∈fromStr json, PricedAlike raw) (first second : Iteration F) :
    parseLitellmJson fromStr first json=parseLitellmJson fromStr second json := by
  rw [parseLitellmJson,parseLitellmJson]
  cases hraw : fromStr json with
  | none => rfl
  | some raw =>
    exact congrArg PricingTable.mk (firstEntries_perm (pricedAlike_iff.mp (h raw hraw))
      (first.perm raw) (second.perm raw))

variable [Mul F] [NatCast F]

omit [Zero F] [LT F] [DecidableLT F] in
/-- A name that has a price of its own is charged at it. -/
theorem get_of_prices {table : PricingTable F} {name : String} {price : ModelPricing F}
    (h : table.prices name=some price) : table.get name=some price := by
  rw [PricingTable.get,h]

/-- For every text, the processes that read it make one table, and price every
model alike, if and only if the entries that come to one name have one
price. -/
theorem parse_alike_iff (fromStr : String → Option (RawPrices F)) (json : String) :
    ((∀ first second : Iteration F,
        parseLitellmJson fromStr first json=parseLitellmJson fromStr second json) ↔
      ∀ raw∈fromStr json, PricedAlike raw) ∧
    ((∀ (first second : Iteration F) (model : String),
        (parseLitellmJson fromStr first json).get model=
          (parseLitellmJson fromStr second json).get model) ↔
      ∀ raw∈fromStr json, PricedAlike raw) := by
  have halike : (∀ (first second : Iteration F) (model : String),
      (parseLitellmJson fromStr first json).get model=
        (parseLitellmJson fromStr second json).get model) →
      ∀ raw∈fromStr json, PricedAlike raw := by
    rintro hsame raw hraw key key' entry entry' hentry hentry' ⟨name,price⟩ htaken ⟨name',price'⟩
      htaken' rfl
    obtain ⟨first,hfirst⟩ := exists_prices hraw hentry htaken
    obtain ⟨second,hsecond⟩ := exists_prices hraw hentry' htaken'
    have hprices := hsame first second name
    rw [get_of_prices hfirst,get_of_prices hsecond] at hprices
    exact Option.some.inj hprices
  refine ⟨⟨fun hsame => halike fun first second model => ?_,parse_eq⟩,halike,
    fun h first second model => ?_⟩
  · rw [hsame first second]
  · rw [parse_eq h first second]

end

/-- A list with two keys of one model, at different prices. -/
def twoPrefixes : String :=
  "\x7b\"gpt-4\": \x7b\"litellm_provider\": \"openai\", \"input_cost_per_token\": 1, " ++
  "\"output_cost_per_token\": 1\x7d, " ++
  "\"openai/gpt-4\": \x7b\"litellm_provider\": \"openai\", \"input_cost_per_token\": 2, " ++
  "\"output_cost_per_token\": 2\x7d\x7d"

/-- An entry of the list. -/
def openaiEntry (cost : ℕ) : LiteLLMEntry ℕ := ⟨some "openai",some cost,some cost,none,none⟩

/-- What the list is read as. -/
def twoPrefixesRaw : RawPrices ℕ :=
  (∅ : RawPrices ℕ).insert "gpt-4" (openaiEntry 1) |>.insert "openai/gpt-4" (openaiEntry 2)

/-- Two processes read one list and charge one model at different rates. -/
theorem twoPrefixes_differ : ∃ first second : Iteration ℕ,
    (parseLitellmJson (fun _ => some twoPrefixesRaw) first twoPrefixes).get "gpt-4"=
      some ⟨1,1,none,none⟩ ∧
    (parseLitellmJson (fun _ => some twoPrefixesRaw) second twoPrefixes).get "gpt-4"=
      some ⟨2,2,none,none⟩ := by
  have hbare : twoPrefixesRaw["gpt-4"]?=some (openaiEntry 1) := rfl
  have hprefixed : twoPrefixesRaw["openai/gpt-4"]?=some (openaiEntry 2) := rfl
  have htaken : ∀ key∈["gpt-4","openai/gpt-4"], ∀ cost∈[1,2],
      pricedModel (key,openaiEntry cost)=some ("gpt-4",⟨cost,cost,none,none⟩) := by
    intro key hkey cost hcost
    simp only [List.mem_cons,List.not_mem_nil,or_false] at hkey hcost
    rcases hkey with rfl | rfl <;> rcases hcost with rfl | rfl <;> rfl
  have hprices := @exists_prices ℕ _ _ _ (fun _ => some twoPrefixesRaw) twoPrefixesRaw twoPrefixes
  obtain ⟨first,hfirst⟩ := hprices rfl hbare (htaken _ (by decide) 1 (by decide))
  obtain ⟨second,hsecond⟩ := hprices rfl hprefixed (htaken _ (by decide) 2 (by decide))
  exact ⟨first,second,get_of_prices hfirst,get_of_prices hsecond⟩

end TokiSync.PriceLists
