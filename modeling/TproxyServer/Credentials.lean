import Mathlib.Data.List.TakeWhile
import TproxyServer.Base64
import TproxyServer.Frames

/-! # How a request names a capability, a token, a lane and a number

The small grammars of `server.go`: `canonicalUint` for sequences, cursors and lanes,
`bearerToken` for the `Authorization` header, `webSocketCredentials` for the subprotocol of a
WebSocket, and the root query that `bridgeProfile` reads.  Each accepts one spelling of each
value, so that a request which is accepted can be read in one way only. -/

namespace TproxyServer

def cutPrefix (lead text : String) : Option String :=
  if lead.toList <+: text.toList then some (String.ofList (text.toList.drop lead.toList.length))
  else none

theorem cutPrefix_eq_some {lead text rest : String} :
    cutPrefix lead text = some rest ↔ text = lead ++ rest := by
  unfold cutPrefix
  constructor
  · intro h
    split_ifs at h with hp
    cases h
    apply String.toList_injective
    rw [String.toList_append, String.toList_ofList]
    exact (List.prefix_iff_eq_append.mp hp).symm
  · rintro rfl
    simp

/-- `strings.Cut` at a character that occurs. -/
def cutAt (c : Char) (text : List Char) : Option (List Char × List Char) :=
  if c ∈ text then some (text.takeWhile (· ≠ c), (text.dropWhile (· ≠ c)).drop 1) else none

theorem cutAt_append {c : Char} {before : List Char} (h : c ∉ before) (rest : List Char) :
    cutAt c (before ++ c :: rest) = some (before, rest) := by
  have hall : ∀ x ∈ before, (decide (x ≠ c)) = true := by
    intro x hx
    simp only [decide_eq_true_eq]
    rintro rfl
    exact h hx
  unfold cutAt
  rw [if_pos (by simp), List.takeWhile_append_of_pos hall, List.dropWhile_append_of_pos hall]
  simp

theorem cutAt_eq_some {c : Char} {text before rest : List Char}
    (h : cutAt c text = some (before, rest)) : text = before ++ c :: rest ∧ c ∉ before := by
  unfold cutAt at h
  split_ifs at h with hc
  simp only [Option.some.injEq, Prod.mk.injEq] at h
  obtain ⟨rfl, rfl⟩ := h
  constructor
  · have hsplit := List.takeWhile_append_dropWhile (p := fun x => decide (x ≠ c)) (l := text)
    cases hd : text.dropWhile (fun x => decide (x ≠ c)) with
    | nil =>
        rw [List.dropWhile_eq_nil_iff] at hd
        have := hd c hc
        simp at this
    | cons x rest =>
        have hne : text.dropWhile (fun x => decide (x ≠ c)) ≠ [] := by
          rw [hd]
          exact List.cons_ne_nil _ _
        have hx := List.head_dropWhile_not _ hne
        simp only [hd, List.head_cons, decide_eq_false_iff_not, not_not] at hx
        subst hx
        rw [hd] at hsplit
        simpa using hsplit.symm
  · intro hmem
    have := List.mem_takeWhile_imp hmem
    simp at this

/-! ### Numbers -/

/-- `strconv.ParseUint` to the base ten, for 64 bits. -/
def parseUint (value : String) : Option ℕ :=
  if value.toList = [] ∨ value.toList.any (fun c => !c.isDigit) then none
  else
    let n := Nat.ofDigitChars 10 value.toList 0
    if n < 2 ^ 64 then some n else none

def canonicalUint (value : String) : Option ℕ :=
  if value = "" ∨ (1 < value.length ∧ value.toList.head? = some '0') ∨
      (cutPrefix "+" value).isSome then none
  else (parseUint value).filter fun n => toString n = value

theorem head_toDigits {n : ℕ} (h : 0 < n) : (Nat.toDigits 10 n).head? ≠ some '0' := by
  induction n using Nat.strong_induction_on with
  | _ n ih =>
      by_cases hn : n < 10
      · rw [Nat.toDigits_of_lt_base hn]
        simp only [List.head?_cons, ne_eq, Option.some.injEq]
        interval_cases n <;> decide
      · rw [Nat.toDigits_of_base_le (by omega) (by omega), List.head?_append,
          List.head?_eq_some_head Nat.toDigits_ne_nil]
        have := ih (n / 10) (by omega) (by omega)
        rwa [List.head?_eq_some_head Nat.toDigits_ne_nil] at this

theorem parseUint_toString {n : ℕ} (h : n < 2 ^ 64) : parseUint (toString n) = some n := by
  have hdigits : ((toString n).toList.any fun c => !c.isDigit) = false := by
    rw [Nat.toString_eq_repr, Nat.toList_repr, List.any_eq_false]
    intro c hc
    simp [Nat.isDigit_of_mem_toDigits (by omega) (by omega) hc]
  unfold parseUint
  rw [if_neg]
  · rw [Nat.toString_eq_repr, Nat.toList_repr]
    dsimp only
    rw [Nat.ofDigitChars_ten_toDigits, if_pos h]
  · rw [hdigits, Nat.toString_eq_repr, Nat.toList_repr]
    simp [Nat.toDigits_ne_nil]

/-- A number has one spelling. -/
theorem canonicalUint_eq_some {value : String} {n : ℕ} :
    canonicalUint value = some n ↔ n < 2 ^ 64 ∧ value = toString n := by
  unfold canonicalUint
  constructor
  · intro h
    split_ifs at h
    obtain ⟨hp, he⟩ := Option.filter_eq_some_iff.mp h
    refine ⟨?_, by simpa using (of_decide_eq_true he).symm⟩
    unfold parseUint at hp
    dsimp only at hp
    split_ifs at hp with _ hlt
    cases hp
    exact hlt
  · rintro ⟨hn, rfl⟩
    have hlist : (toString n).toList = Nat.toDigits 10 n := by
      rw [Nat.toString_eq_repr, Nat.toList_repr]
    rw [if_neg, parseUint_toString hn]
    · simp
    · rintro (h | ⟨hlen, h⟩ | h)
      · exact Nat.repr_ne_empty (by rw [← Nat.toString_eq_repr, h])
      · rw [hlist] at h
        rcases Nat.eq_zero_or_pos n with rfl | hpos
        · exact absurd hlen (by decide)
        · exact head_toDigits hpos h
      · obtain ⟨rest, hrest⟩ := Option.isSome_iff_exists.mp h
        have hplus : '+' ∈ Nat.toDigits 10 n := by
          rw [← hlist, cutPrefix_eq_some.mp hrest, String.toList_append]
          exact List.mem_append_left _ (by decide)
        have := Nat.isDigit_of_mem_toDigits (by omega) (by omega) hplus
        exact absurd this (by decide)

/-! ### Tokens -/

def bearerToken (value : String) : Option String :=
  match cutPrefix "Bearer " value with
  | none => none
  | some token =>
      if value.toList.count ' ' ≠ 1 then none
      else match Base64.decode token with
        | none => none
        | some decoded =>
            if decoded.length = 32 ∧ Base64.encode decoded = token then some token else none

theorem encode_clean (x : Bytes) {c : Char} (h : c ∉ Base64.alphabet) :
    c ∉ (Base64.encode x).toList := by
  rw [Base64.encode, String.toList_ofList]
  exact fun hc => h (Base64.encodeChars_mem x c hc)

/-- The tokens are the spellings of 32 bytes. -/
theorem bearerToken_eq_some {value token : String} :
    bearerToken value = some token ↔
      (∃ x : Bytes, x.length = 32 ∧ token = Base64.encode x) ∧ value = "Bearer " ++ token := by
  unfold bearerToken
  constructor
  · intro h
    split at h
    · cases h
    · next rest hrest =>
        split_ifs at h
        split at h
        · cases h
        · next decoded _ =>
            split_ifs at h with hd
            cases h
            exact ⟨⟨decoded, hd.1, hd.2.symm⟩, cutPrefix_eq_some.mp hrest⟩
  · rintro ⟨⟨x, hx, rfl⟩, rfl⟩
    rw [cutPrefix_eq_some.mpr rfl]
    dsimp only
    rw [if_neg, Base64.decode_encode]
    · simp [hx]
    · rw [not_not, String.toList_append, List.count_append,
        List.count_eq_zero_of_not_mem (encode_clean x (by decide))]
      decide

def webSocketProtocolPrefix : String := "tproxy-v1."
def webSocketLaneProtocolPrefix : String := "tproxy-lane-v1."

/-- `webSocketCredentials`: the token, and the lane where there is one. -/
def webSocketCredentials (protocol : String) : Option (String × Option ℕ) :=
  match cutPrefix webSocketProtocolPrefix protocol with
  | some token => if token = "" then none else some (token, none)
  | none =>
      match cutPrefix webSocketLaneProtocolPrefix protocol with
      | none => none
      | some tokenAndLane =>
          match cutAt '.' tokenAndLane.toList with
          | none => none
          | some (token, laneText) =>
              if token = [] then none
              else match canonicalUint (String.ofList laneText) with
                | none => none
                | some lane =>
                    if lane = 0 ∨ maxStreamID < lane then none
                    else some (String.ofList token, some lane)

/-- The subprotocol with these credentials. -/
def webSocketProtocol (token : String) : Option ℕ → String
  | none => webSocketProtocolPrefix ++ token
  | some lane => webSocketLaneProtocolPrefix ++ token ++ "." ++ toString lane

/-- Credentials that `webSocketCredentials` can find. -/
def Presentable (token : String) (lane : Option ℕ) : Prop :=
  token ≠ "" ∧ ∀ l, lane = some l → '.' ∉ token.toList ∧ 0 < l ∧ l ≤ maxStreamID

/-- A subprotocol has one reading, and credentials one spelling. -/
theorem webSocketCredentials_eq_some {protocol token : String} {lane : Option ℕ} :
    webSocketCredentials protocol = some (token, lane) ↔
      Presentable token lane ∧ protocol = webSocketProtocol token lane := by
  have hapart : ∀ rest, cutPrefix webSocketProtocolPrefix (webSocketLaneProtocolPrefix ++ rest) =
      none := by
    intro rest
    unfold cutPrefix
    rw [if_neg]
    rw [String.toList_append]
    intro h
    obtain ⟨rest', h⟩ := h
    have h8 := congrArg (fun l => l[7]?) h
    simp [webSocketProtocolPrefix, webSocketLaneProtocolPrefix] at h8
  unfold webSocketCredentials
  constructor
  · intro h
    split at h
    · next found hfound =>
        split_ifs at h with hne
        cases h
        refine ⟨⟨hne, fun l hl => by cases hl⟩, cutPrefix_eq_some.mp hfound⟩
    · split at h
      · cases h
      · next tokenAndLane hlead =>
          split at h
          · cases h
          · next token' laneText hcut =>
              split_ifs at h with hne
              split at h
              · cases h
              · next n hn =>
                  split_ifs at h with hrange
                  cases h
                  obtain ⟨htext, hdot⟩ := cutAt_eq_some hcut
                  obtain ⟨-, hlane⟩ := canonicalUint_eq_some.mp hn
                  refine ⟨⟨?_, ?_⟩, ?_⟩
                  · intro he
                    exact hne (by simpa using congrArg String.toList he)
                  · rintro l ⟨⟩
                    refine ⟨by simpa using hdot, ?_, ?_⟩
                    · omega
                    · omega
                  · rw [cutPrefix_eq_some.mp hlead]
                    apply String.toList_injective
                    simp only [webSocketProtocol, String.toList_append, htext]
                    have := congrArg String.toList hlane
                    rw [String.toList_ofList] at this
                    simp [this]
  · rintro ⟨⟨hne, hlane⟩, rfl⟩
    cases lane with
    | none => simp [webSocketProtocol, cutPrefix_eq_some.mpr rfl, hne]
    | some l =>
        obtain ⟨hdot, hpos, hmax⟩ := hlane l rfl
        have hlead : webSocketProtocol token (some l) =
            webSocketLaneProtocolPrefix ++ (token ++ "." ++ toString l) := by
          simp [webSocketProtocol, String.append_assoc]
        have hcut : cutAt '.' (token ++ "." ++ toString l).toList =
            some (token.toList, (toString l).toList) := by
          rw [String.toList_append, String.toList_append, List.append_assoc]
          exact cutAt_append hdot _
        have hl : canonicalUint (toString l) = some l := by
          apply canonicalUint_eq_some.mpr
          refine ⟨?_, rfl⟩
          have : maxStreamID < 2 ^ 64 := by decide
          omega
        rw [hlead, hapart, cutPrefix_eq_some.mpr rfl]
        dsimp only
        rw [hcut]
        dsimp only
        rw [if_neg, String.ofList_toList, hl]
        · dsimp only
          rw [if_neg, String.ofList_toList]
          omega
        · intro he
          exact hne (String.toList_injective (by simpa using he))

/-! ### The capability -/

def unhex (c : Char) : Option ℕ :=
  if '0' ≤ c ∧ c ≤ '9' then some (c.toNat - '0'.toNat)
  else if 'a' ≤ c ∧ c ≤ 'f' then some (c.toNat - 'a'.toNat + 10)
  else if 'A' ≤ c ∧ c ≤ 'F' then some (c.toNat - 'A'.toNat + 10)
  else none

def queryUnescape : List Char → Option (List Char)
  | [] => some []
  | '%' :: a :: b :: rest =>
      match unhex a, unhex b with
      | some x, some y => (queryUnescape rest).map (Char.ofNat (x * 16 + y) :: ·)
      | _, _ => none
  | '%' :: _ => none
  | '+' :: rest => (queryUnescape rest).map (' ' :: ·)
  | c :: rest => (queryUnescape rest).map (c :: ·)

/-- One turn of the loop of `url.parseQuery`. -/
def parseQueryPart (part : List Char) : Option (List Char × List Char) :=
  if ';' ∈ part ∨ part = [] then none
  else
    let (key, value) := (cutAt '=' part).getD (part, [])
    match queryUnescape key, queryUnescape value with
    | some key, some value => some (key, value)
    | _, _ => none

/-- `URL.Query`: the keys with their values, in order. -/
def parseQuery (query : String) : List (List Char × List Char) :=
  (query.toList.splitOn '&').filterMap parseQueryPart

/-- The capability that `bridgeProfile` looks for. -/
def bridgeCandidate (rawQuery : String) : Option Bytes :=
  let query := parseQuery rawQuery
  let values := (query.filter fun p => p.1 = "bridge".toList).map Prod.snd
  match values with
  | [value] =>
      if (query.map Prod.fst).dedup.length = 1 ∧ value.length = 43 ∧
          rawQuery = "bridge=" ++ String.ofList value then
        match Base64.decode (String.ofList value) with
        | none => none
        | some decoded =>
            if decoded.length = 32 ∧ Base64.encode decoded = String.ofList value then some decoded
            else none
      else none
  | _ => none

theorem queryUnescape_clean {text : List Char} (h : ∀ c ∈ text, c ≠ '%' ∧ c ≠ '+') :
    queryUnescape text = some text := by
  induction text with
  | nil => rfl
  | cons c rest ih =>
      have hc := h c (by simp)
      have hrest := ih fun x hx => h x (by simp [hx])
      rw [queryUnescape.eq_def]
      split
      · next heq => cases heq
      · next heq => exact absurd (List.cons.inj heq).1 hc.1
      · next heq => exact absurd (List.cons.inj heq).1 hc.1
      · next heq => exact absurd (List.cons.inj heq).1 hc.2
      · next heq =>
          cases heq
          rw [hrest]
          rfl

theorem parseQuery_bridge (x : Bytes) :
    parseQuery ("bridge=" ++ Base64.encode x) = [("bridge".toList, (Base64.encode x).toList)] := by
  have hclean : ∀ c : Char, c ∉ Base64.alphabet → c ∉ (Base64.encode x).toList :=
    fun c h => encode_clean x h
  have hlist : ("bridge=" ++ Base64.encode x).toList =
      "bridge".toList ++ '=' :: (Base64.encode x).toList := by
    simp
  have hpart : parseQueryPart ("bridge".toList ++ '=' :: (Base64.encode x).toList) =
      some ("bridge".toList, (Base64.encode x).toList) := by
    unfold parseQueryPart
    rw [if_neg, cutAt_append (by decide)]
    · dsimp only [Option.getD_some]
      rw [queryUnescape_clean, queryUnescape_clean]
      · intro c hc
        constructor
        · rintro rfl
          exact hclean _ (by decide) hc
        · rintro rfl
          exact hclean _ (by decide) hc
      · simp
    · rintro (h | h)
      · have := hclean ';' (by decide)
        simp_all
      · simp at h
  unfold parseQuery
  rw [hlist, List.splitOn_eq_singleton, List.filterMap_cons, hpart]
  · rfl
  · have := hclean '&' (by decide)
    simp_all

/-- The root query of a capability has one spelling. -/
theorem bridgeCandidate_eq_some {rawQuery : String} {capability : Bytes} :
    bridgeCandidate rawQuery = some capability ↔
      capability.length = 32 ∧ rawQuery = "bridge=" ++ Base64.encode capability := by
  constructor
  · intro h
    unfold bridgeCandidate at h
    dsimp only at h
    split at h
    · next value _ =>
        split_ifs at h with hq
        split at h
        · cases h
        · next decoded _ =>
            split_ifs at h with hd
            cases h
            exact ⟨hd.1, by rw [hd.2]; exact hq.2.2⟩
    · cases h
  · rintro ⟨hlen, rfl⟩
    have hlength : (Base64.encode capability).toList.length = 43 := by
      rw [String.length_toList, Base64.encode_length, hlen]
    unfold bridgeCandidate
    rw [parseQuery_bridge]
    simp [hlength, Base64.decode_encode, hlen, String.ofList_toList]

end TproxyServer
