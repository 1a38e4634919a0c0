import GpuCluster.Foundation.IpAddr
import GpuCluster.Foundation.Text
import Mathlib.Data.List.TakeDrop

/-! # URI authorities

The authority component of the generic URI grammar: optional user information,
a host and an optional port. An IPv6 address is a host only between brackets.
-/

namespace GpuCluster.Foundation

inductive Host
  | ip (address : IpAddr)
  | future (text : List Char)
  | name (text : List Char)
  deriving DecidableEq

structure Authority where
  userinfo : Option (List Char)
  host : Host
  port : Option ℕ
  deriving DecidableEq

def isUnreserved (c : Char) : Bool := c.isAlphanum || c ∈ "-._~".toList

def isSubDelim (c : Char) : Bool := c ∈ "!$&'()*+,;=".toList

/-- Characters of a component, with percent escapes; `extra` are those it allows besides. -/
def isComponent (extra : List Char) : List Char → Bool
  | [] => true
  | '%' :: high :: low :: rest =>
      digitValue high < 16 && digitValue low < 16 && isComponent extra rest
  | c :: rest => (isUnreserved c || isSubDelim c || c ∈ extra) && isComponent extra rest

/-- What stands between the brackets: `IPv6address` or `IPvFuture`. -/
def Host.parseLiteral (text : List Char) : Option Host :=
  match Ipv6.parse text, text with
  | some address, _ => some (.ip (.v6 address))
  | none, 'v' :: rest =>
      match rest.span (digitValue · < 16) with
      | (_ :: _, '.' :: c :: more) =>
          if (c :: more).all fun c => isUnreserved c || isSubDelim c || c = ':' then
            some (.future text)
          else none
      | _ => none
  | none, _ => none

/-- `IPv4address`, else `reg-name`. -/
def Host.parseName (text : List Char) : Option Host :=
  match Ipv4.parse text with
  | some address => some (.ip (.v4 address))
  | none => if isComponent [] text then some (.name text) else none

/-- `[ ":" port ]`. -/
def parsePort : List Char → Option (Option ℕ)
  | [] => some none
  | [':'] => some none
  | ':' :: digits => if digits.all Char.isDigit then (numeral? 10 digits).map some else none
  | _ => none

def parseHostPort (text : List Char) : Option (Host × Option ℕ) :=
  match text with
  | '[' :: rest =>
      match rest.span (· ≠ ']') with
      | (literal, _ :: after) => do
          let host ← Host.parseLiteral literal
          let port ← parsePort after
          return (host, port)
      | _ => none
  | _ => do
      let host ← Host.parseName (text.takeWhile (· ≠ ':'))
      let port ← parsePort (text.dropWhile (· ≠ ':'))
      return (host, port)

/-- `authority`. -/
def Authority.parse (text : List Char) : Option Authority :=
  match text.span (· ≠ '@') with
  | (userinfo, _ :: rest) =>
      if isComponent [':'] userinfo then
        (parseHostPort rest).map fun (host, port) => ⟨some userinfo, host, port⟩
      else none
  | (_, []) => (parseHostPort text).map fun (host, port) => ⟨none, host, port⟩

/-- The authority and the rest of an `http` URL. -/
def parseHttp (url : String) : Option (Authority × String) := do
  let rest ← stripPrefix? "http://" url
  let ends := fun c => c = '/' ∨ c = '?' ∨ c = '#'
  let authority ← Authority.parse (rest.toList.takeWhile fun c => ¬ ends c)
  return (authority, .ofList (rest.toList.dropWhile fun c => ¬ ends c))

/-! ## Authorities of addresses -/

/-- A host and a port joined by a colon. -/
def bareAuthority (host : List Char) (port : ℕ) : List Char := host ++ ':' :: Nat.toDigits 10 port

theorem parsePort_toDigits (port : ℕ) :
    parsePort (':' :: Nat.toDigits 10 port) = some (some port) := by
  have hall : (Nat.toDigits 10 port).all Char.isDigit = true := by
    rw [List.all_eq_true]
    intro c hc
    exact Nat.isDigit_of_mem_toDigits (by decide) (by decide) hc
  have hnumeral := numeral?_toDigits (by decide) (by decide : 10 ≤ 16) port
  rw [parsePort, if_pos hall, hnumeral]
  · rfl
  · simp

/-- A port has no colon in it. -/
theorem parsePort_eq_none {text : List Char} (hcolon : ':' ∈ text) :
    parsePort (':' :: text) = none := by
  have hall : text.all Char.isDigit ≠ true := by
    intro hall
    exact absurd (List.all_eq_true.mp hall _ hcolon) (by decide)
  rw [parsePort, if_neg hall]
  rintro rfl
  cases hcolon

/-- A text without a character passes the scan for it. -/
theorem decide_ne_of_not_mem {text : List Char} {stop : Char} (hstop : stop ∉ text) :
    ∀ c ∈ text, decide (c ≠ stop) = true := by
  intro c hc
  rw [decide_eq_true_eq]
  rintro rfl
  exact hstop hc

/-- Outside of brackets the first colon ends the host. -/
theorem parseHostPort_of_ne {first : Char} (hfirst : first ≠ '[') (rest : List Char) :
    parseHostPort (first :: rest) = (do
      let host ← Host.parseName ((first :: rest).takeWhile (· ≠ ':'))
      let port ← parsePort ((first :: rest).dropWhile (· ≠ ':'))
      return (host, port)) := by
  rw [parseHostPort]
  intro more hmore
  exact absurd (List.cons.inj hmore).1 hfirst

section Bare

variable {text : List Char} {address : IpAddr}

/-- Joined by a colon, only an IPv4 address is read back: the first colon of an
IPv6 address already ends the host. -/
theorem parseHostPort_bareAuthority (hparse : IpAddr.parse text = some address) (port : ℕ) :
    parseHostPort (bareAuthority text port) =
      if address.isIpv4 then some (.ip address, some port) else none := by
  have hbracket : '[' ∉ text :=
    IpAddr.not_mem_of_parse hparse (by decide) (by decide) (by decide)
  unfold bareAuthority
  cases htext : text with
  | nil => exact absurd htext (IpAddr.ne_nil_of_parse hparse)
  | cons first rest =>
      have hfirst : first ≠ '[' := by
        rintro rfl
        rw [htext] at hbracket
        exact hbracket (List.mem_cons_self ..)
      rw [List.cons_append, parseHostPort_of_ne hfirst, ← List.cons_append, ← htext]
      cases address with
      | v4 ip =>
          have htext4 : text = ip.text := IpAddr.parse_eq_v4.mp hparse
          have hcolon : ∀ c ∈ text, decide (c ≠ ':') = true := by
            rw [htext4]
            exact decide_ne_of_not_mem (ip.not_mem_text (by decide) (by decide))
          rw [List.takeWhile_append_of_pos hcolon, List.dropWhile_append_of_pos hcolon, htext4]
          simp [Host.parseName, Ipv4.parse_text, parsePort_toDigits, IpAddr.isIpv4]
      | v6 ip =>
          obtain ⟨before, after, hsplit, hbefore⟩ := List.eq_append_cons_of_mem
            (Ipv6.colon_mem_of_parse (IpAddr.parse_eq_v6.mp hparse))
          have hcolon : ∀ c ∈ before, decide (c ≠ ':') = true := decide_ne_of_not_mem hbefore
          have hport : parsePort ((text ++ ':' :: Nat.toDigits 10 port).dropWhile (· ≠ ':')) =
              none := by
            rw [hsplit, List.append_assoc, List.dropWhile_append_of_pos hcolon]
            exact parsePort_eq_none (by simp)
          simp only [hport]
          cases Host.parseName _ <;> rfl

/-- No character that ends or splits an authority gets into one by an address or a port. -/
theorem not_mem_bareAuthority (hparse : IpAddr.parse text = some address) (port : ℕ) {c : Char}
    (hdot : c ≠ '.') (hcolon : c ≠ ':') (hc : digitValue c = 16) :
    c ∉ bareAuthority text port := by
  simp only [bareAuthority, List.mem_append, List.mem_cons, not_or]
  exact ⟨IpAddr.not_mem_of_parse hparse hdot hcolon hc, hcolon,
    not_mem_toDigits (by decide) (by decide) hc port⟩

/-- Without an at sign there is no user information. -/
theorem Authority.parse_of_not_mem {text : List Char} (hat : '@' ∉ text) :
    Authority.parse text = (parseHostPort text).map fun (host, port) => ⟨none, host, port⟩ := by
  have hall : ∀ c ∈ text, decide (c ≠ '@') = true := decide_ne_of_not_mem hat
  have hspan : text.span (· ≠ '@') = (text, []) := by
    rw [List.span_eq_takeWhile_dropWhile, List.takeWhile_eq_self_iff.mpr hall,
      List.dropWhile_eq_nil_iff.mpr hall]
  rw [Authority.parse, hspan]

/-- The form without brackets is an authority for IPv4 only. -/
theorem Authority.parse_bareAuthority (hparse : IpAddr.parse text = some address) (port : ℕ) :
    Authority.parse (bareAuthority text port) =
      if address.isIpv4 then some ⟨none, .ip address, some port⟩ else none := by
  rw [Authority.parse_of_not_mem (not_mem_bareAuthority hparse port (by decide) (by decide)
    (by decide)), parseHostPort_bareAuthority hparse]
  cases address <;> rfl

end Bare

/-- A URL whose authority ends where its path starts. -/
theorem parseHttp_append (text : List Char) (path : String)
    (htext : ∀ c ∈ text, ¬ (c = '/' ∨ c = '?' ∨ c = '#'))
    (hpath : path = "" ∨ path.toList.head? = some '/') :
    parseHttp ("http://" ++ String.ofList text ++ path) =
      (Authority.parse text).map fun authority => (authority, path) := by
  have hstrip : stripPrefix? "http://" ("http://" ++ String.ofList text ++ path) =
      some (String.ofList text ++ path) := by
    rw [String.append_assoc, stripPrefix?_append]
  have hall : ∀ c ∈ text, decide (¬ (c = '/' ∨ c = '?' ∨ c = '#')) = true := by
    intro c hc
    exact decide_eq_true (htext c hc)
  have htake : path.toList.takeWhile (fun c => ¬ (c = '/' ∨ c = '?' ∨ c = '#')) = [] ∧
      path.toList.dropWhile (fun c => ¬ (c = '/' ∨ c = '?' ∨ c = '#')) = path.toList := by
    rcases hpath with rfl | hslash
    · exact ⟨rfl, rfl⟩
    · obtain ⟨rest, hrest⟩ := List.head?_eq_some_iff.mp hslash
      rw [hrest]
      exact ⟨rfl, rfl⟩
  rw [parseHttp, hstrip, Option.bind_eq_bind, Option.bind_some]
  simp only [String.toList_append, String.toList_ofList]
  rw [List.takeWhile_append_of_pos hall, List.dropWhile_append_of_pos hall, htake.1, htake.2,
    List.append_nil, String.ofList_toList]
  cases Authority.parse text <;> rfl

end GpuCluster.Foundation
