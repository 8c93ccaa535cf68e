import CrudAuth.Utils.IpAddress

/-
  `client_ip_key`: the rate-limit and lockout key of a
  client's address, however the address is written.

  Main declarations:
    * `network`
    * `clientIpKey`
    * `clientOf`
    * `KeyedByClient`
    * `clientIpKey_keyedByClient`
-/

namespace CrudAuth

namespace Ip

------------------------------------------------------------
-- Keys
------------------------------------------------------------

/- The 64 bits of a host, as four groups. -/
def hostBits (address : IPv6Address) : List (Fin 65536) :=
  address.groups.drop 4

/-
  `IPv6Network((address, 64), strict=False)`: its address is
  `address` itself, read from its text, scope and all, unless
  that has host bits.
-/
def network (address : IPv6Address) : IPv6Address :=
  if hostBits address = noHost then
    address
  else
    { groups := address.groups.take 4 ++ noHost
      scopeId := none
      length_groups := by
        simp [noHost, address.length_groups]
      scopeId_ok := by simp }

/- The `/64` of an address. -/
def networkText (address : IPv6Address) : Text :=
  (network address).text ++ "/64".toList

/- `client_ip_key` -/
def clientIpKey (ip : Text) : Text :=
  match ipAddress ip with
  | none => ip
  | some (.v4 address) => address.text
  | some (.v6 address) =>
      match address.ipv4Mapped with
      | some mapped => mapped.text
      | none => networkText address

------------------------------------------------------------
-- Clients
------------------------------------------------------------

/-
  One address of version 4, a block of version 6 that one
  subscriber is assigned, or something without an address.
-/
inductive Client where
  | ipv4 (address : IPv4Address)
  | ipv6
      (block : List (Fin 65536))
      (scopeId : Option Text)
  | named (text : Text)
deriving DecidableEq

/- A scope only tells addresses without host bits apart. -/
def keptScope (address : IPv6Address) : Option Text :=
  if hostBits address = noHost then
    address.scopeId
  else
    none

/- Mapped addresses are those of version 4. -/
def clientOf (ip : Text) : Client :=
  match ipAddress ip with
  | none => .named ip
  | some (.v4 address) => .ipv4 address
  | some (.v6 address) =>
      match address.ipv4Mapped with
      | some mapped => .ipv4 mapped
      | none =>
          .ipv6 (address.groups.take 4) (keptScope address)

/-
  A key for clients: two texts have the same one exactly if
  they belong to one client, a key is its own key, and what
  follows a key and a colon never makes it another's.
-/
structure KeyedByClient (key : Text → Text) : Prop where
  same : ∀ ip ip',
    '/' ∉ ip → '/' ∉ ip' →
      (key ip = key ip' ↔ clientOf ip = clientOf ip')
  again : ∀ ip, key (key ip) = key ip
  apart : ∀ ip ip' rest rest',
    (ipAddress ip).isSome = true →
    (ipAddress ip').isSome = true →
    key ip ++ ':' :: rest = key ip' ++ ':' :: rest' →
      clientOf ip = clientOf ip' ∧ rest = rest'

variable {ip ip' : Text}
variable {address address' : IPv6Address}

------------------------------------------------------------
-- Networks
------------------------------------------------------------

/- A network keeps the first four groups. -/
theorem groups_network :
    (network address).groups =
      address.groups.take 4 ++ noHost := by
  unfold network
  split
  · rename_i hHost
    rw [← hHost, hostBits, List.take_append_drop]
  · rfl

theorem scopeId_network :
    (network address).scopeId = keptScope address := by
  unfold network keptScope
  split <;> rfl

/- The network's text tells the block and the scope. -/
theorem networkText_eq_iff :
    networkText address = networkText address' ↔
      address.groups.take 4 = address'.groups.take 4 ∧
        keptScope address = keptScope address' := by
  constructor
  · intro hSame
    have hText : (network address).text =
        (network address').text :=
      List.append_cancel_right hSame
    have hRead := parseIPv6_text (network address)
    rw [hText, parseIPv6_text, Option.some.injEq] at hRead
    have hGroups := congrArg IPv6Address.groups hRead
    have hScope := congrArg IPv6Address.scopeId hRead
    rw [groups_network, groups_network] at hGroups
    rw [scopeId_network, scopeId_network] at hScope
    exact ⟨(List.append_cancel_right hGroups).symm,
      hScope.symm⟩
  · rintro ⟨hBlock, hScope⟩
    have hGroups :
        (network address).groups =
          (network address').groups := by
      rw [groups_network, groups_network, hBlock]
    have hKept :
        (network address).scopeId =
          (network address').scopeId := by
      rw [scopeId_network, scopeId_network, hScope]
    unfold networkText IPv6Address.text
      IPv6Address.scopeText
    rw [hGroups, hKept]

------------------------------------------------------------
-- Texts Of Clients
------------------------------------------------------------

/- Version 4 is written without a slash or a colon. -/
theorem mark_notMem_ipv4
    {mark : Char}
    {address : IPv4Address}
    (hRead : parseIPv4 ip = some address)
    (hMark : mark ∈ ['/', ':']) :
    mark ∉ ip := by
  have hOther : mark ≠ '.' ∧ digitValue mark = none := by
    rcases List.mem_pair.mp hMark with rfl | rfl
    · exact ⟨by decide, rfl⟩
    · exact ⟨by decide, rfl⟩
  intro hMem
  rcases digit_of_parseIPv4 hRead hMem with hDot | hDigit
  · exact hOther.1 hDot
  · rw [hOther.2] at hDigit
    cases hDigit

/- An address has no slash. -/
theorem slash_notMem_of_ipAddress
    (hAddress : (ipAddress ip).isSome = true) :
    '/' ∉ ip := by
  intro hSlash
  unfold ipAddress at hAddress
  cases hRead : parseIPv4 ip with
  | some address =>
      exact mark_notMem_ipv4 hRead (by decide) hSlash
  | none =>
      simp [hRead, parseIPv6, hSlash] at hAddress

theorem slash_mem_networkText :
    '/' ∈ networkText address :=
  List.mem_append_right _ (by decide)

/- What a text is keyed by, and the client it belongs to. -/
inductive Keyed (ip : Text) : Prop
  | ipv4
      (address : IPv4Address)
      (hSlash : '/' ∉ ip)
      (hClient : clientOf ip = .ipv4 address)
      (hKey : clientIpKey ip = address.text)
  | ipv6
      (address : IPv6Address)
      (hSlash : '/' ∉ ip)
      (hClient : clientOf ip =
        .ipv6 (address.groups.take 4) (keptScope address))
      (hKey : clientIpKey ip = networkText address)
  | named
      (hNone : ipAddress ip = none)
      (hClient : clientOf ip = .named ip)
      (hKey : clientIpKey ip = ip)

/- Every text is keyed by its client. -/
theorem keyed (ip : Text) : Keyed ip := by
  cases hAddress : ipAddress ip with
  | none =>
      exact .named hAddress (by rw [clientOf, hAddress])
        (by rw [clientIpKey, hAddress])
  | some address =>
      have hSlash : '/' ∉ ip :=
        slash_notMem_of_ipAddress (by rw [hAddress]; rfl)
      cases address with
      | v4 address =>
          exact .ipv4 address hSlash
            (by rw [clientOf, hAddress])
            (by rw [clientIpKey, hAddress])
      | v6 address =>
          cases hMapped : address.ipv4Mapped with
          | some mapped =>
              exact .ipv4 mapped hSlash
                (by simp only [clientOf, hAddress, hMapped])
                (by simp only [clientIpKey, hAddress,
                  hMapped])
          | none =>
              exact .ipv6 address hSlash
                (by simp only [clientOf, hAddress, hMapped])
                (by simp only [clientIpKey, hAddress,
                  hMapped])

/- Two addresses are written apart. -/
theorem text_inj_ipv4
    {address address' : IPv4Address}
    (hSame : address.text = address'.text) :
    address = address' := by
  have hRead := parseIPv4_text address
  rw [hSame, parseIPv4_text] at hRead
  exact (Option.some.inj hRead).symm

theorem text_ne_networkText
    {address : IPv4Address}
    {address' : IPv6Address} :
    address.text ≠ networkText address' := by
  intro hSame
  have hSlash : '/' ∈ address.text := by
    rw [hSame]
    exact slash_mem_networkText
  exact mark_notMem_ipv4 (parseIPv4_text address)
    (by decide) hSlash

------------------------------------------------------------
-- One Key For Each Client
------------------------------------------------------------

/- One key stands for one client. -/
theorem clientOf_eq_of_key_eq
    (hSlash : '/' ∉ ip)
    (hSlash' : '/' ∉ ip')
    (hSame : clientIpKey ip = clientIpKey ip') :
    clientOf ip = clientOf ip' := by
  cases keyed ip with
  | ipv4 address _ hClient hKey =>
      rw [hKey] at hSame
      cases keyed ip' with
      | ipv4 address' _ hClient' hKey' =>
          rw [hKey'] at hSame
          rw [hClient, hClient', text_inj_ipv4 hSame]
      | ipv6 address' _ _ hKey' =>
          rw [hKey'] at hSame
          exact absurd hSame text_ne_networkText
      | named hNone _ hKey' =>
          rw [hKey'] at hSame
          rw [← hSame, ipAddress_text_v4] at hNone
          cases hNone
  | ipv6 address _ hClient hKey =>
      rw [hKey] at hSame
      cases keyed ip' with
      | ipv4 address' _ _ hKey' =>
          rw [hKey'] at hSame
          exact absurd hSame.symm text_ne_networkText
      | ipv6 address' _ hClient' hKey' =>
          rw [hKey', networkText_eq_iff] at hSame
          rw [hClient, hClient', hSame.1, hSame.2]
      | named _ _ hKey' =>
          rw [hKey'] at hSame
          rw [← hSame] at hSlash'
          exact absurd slash_mem_networkText hSlash'
  | named hNone hClient hKey =>
      rw [hKey] at hSame
      cases keyed ip' with
      | ipv4 address' _ _ hKey' =>
          rw [hKey'] at hSame
          rw [hSame, ipAddress_text_v4] at hNone
          cases hNone
      | ipv6 address' _ _ hKey' =>
          rw [hKey'] at hSame
          rw [hSame] at hSlash
          exact absurd slash_mem_networkText hSlash
      | named _ hClient' hKey' =>
          rw [hKey'] at hSame
          rw [hClient, hClient', hSame]

/- One client is counted under one key. -/
theorem key_eq_of_clientOf_eq
    (hSame : clientOf ip = clientOf ip') :
    clientIpKey ip = clientIpKey ip' := by
  cases keyed ip with
  | ipv4 address _ hClient hKey =>
      rw [hClient] at hSame
      cases keyed ip' with
      | ipv4 address' _ hClient' hKey' =>
          rw [hClient'] at hSame
          cases hSame
          rw [hKey, hKey']
      | ipv6 address' _ hClient' _ =>
          rw [hClient'] at hSame
          cases hSame
      | named _ hClient' _ =>
          rw [hClient'] at hSame
          cases hSame
  | ipv6 address _ hClient hKey =>
      rw [hClient] at hSame
      cases keyed ip' with
      | ipv4 address' _ hClient' _ =>
          rw [hClient'] at hSame
          cases hSame
      | ipv6 address' _ hClient' hKey' =>
          rw [hClient', Client.ipv6.injEq] at hSame
          rw [hKey, hKey', networkText_eq_iff]
          exact hSame
      | named _ hClient' _ =>
          rw [hClient'] at hSame
          cases hSame
  | named _ hClient hKey =>
      rw [hClient] at hSame
      cases keyed ip' with
      | ipv4 address' _ hClient' _ =>
          rw [hClient'] at hSame
          cases hSame
      | ipv6 address' _ hClient' _ =>
          rw [hClient'] at hSame
          cases hSame
      | named _ hClient' hKey' =>
          rw [hClient', Client.named.injEq] at hSame
          rw [hKey, hKey', hSame]

/- A key is its own key. -/
theorem clientIpKey_clientIpKey (ip : Text) :
    clientIpKey (clientIpKey ip) = clientIpKey ip := by
  cases keyed ip with
  | ipv4 address _ _ hKey =>
      rw [hKey, clientIpKey, ipAddress_text_v4]
  | ipv6 address _ _ hKey =>
      have hNone :
          ipAddress (networkText address) = none := by
        cases hRead : ipAddress (networkText address) with
        | none => rfl
        | some found =>
            exact absurd slash_mem_networkText
              (slash_notMem_of_ipAddress
                (by rw [hRead]; rfl))
      rw [hKey, clientIpKey, hNone]
  | named hNone _ hKey =>
      rw [hKey, hKey]

------------------------------------------------------------
-- Keys With More Behind Them
------------------------------------------------------------

/- Where a text ends at a mark it has not. -/
theorem eq_of_append_mark
    {mark : Char}
    {text text' rest rest' : Text}
    (hText : mark ∉ text)
    (hText' : mark ∉ text')
    (hSame :
      text ++ mark :: rest = text' ++ mark :: rest') :
    text = text' := by
  have hTaken (text rest : Text) (hText : mark ∉ text) :
      (text ++ mark :: rest).takeWhile (· ≠ mark) =
        text := by
    rw [List.takeWhile_append_of_pos]
    · simp
    · intro char hChar
      rw [decide_eq_true_iff]
      rintro rfl
      exact hText hChar
  rw [← hTaken text rest hText, hSame, hTaken text' rest'
    hText']

/- A dot comes before the colon in version 4 only. -/
theorem append_ipv4_ne_append_ipv6
    {address : IPv4Address}
    {address' : IPv6Address}
    {rest rest' : Text} :
    address.text ++ ':' :: rest ≠
      networkText address' ++ ':' :: rest' := by
  intro hSame
  have hColon : ':' ∉ address.text :=
    mark_notMem_ipv4 (parseIPv4_text address) (by decide)
  have hDot : '.' ∈ address.text := by
    simp [IPv4Address.text, List.intercalate]
  have hGroups := (network address').length_groups
  rcases List.eq_append_cons_of_mem
      (colon_mem_groupsText hGroups) with
    ⟨before, after, hSplit, hBefore⟩
  have hFirst : address.text = before := by
    unfold networkText IPv6Address.text at hSame
    rw [hSplit] at hSame
    simp only [List.append_assoc, List.cons_append] at hSame
    exact eq_of_append_mark hColon hBefore hSame
  apply mark_notMem_groupsText hGroups
    (show '.' ∈ ['.', '%', '/'] by decide)
  rw [hSplit, ← hFirst]
  exact List.mem_append_left _ hDot

/- What follows a key and a colon is not part of it. -/
theorem key_eq_of_append
    {rest rest' : Text}
    (hAddress : (ipAddress ip).isSome = true)
    (hAddress' : (ipAddress ip').isSome = true)
    (hSame :
      clientIpKey ip ++ ':' :: rest =
        clientIpKey ip' ++ ':' :: rest') :
    clientIpKey ip = clientIpKey ip' := by
  cases keyed ip with
  | ipv4 address _ _ hKey =>
      rw [hKey] at hSame ⊢
      cases keyed ip' with
      | ipv4 address' _ _ hKey' =>
          rw [hKey'] at hSame ⊢
          exact eq_of_append_mark
            (mark_notMem_ipv4 (parseIPv4_text address)
              (by decide))
            (mark_notMem_ipv4 (parseIPv4_text address')
              (by decide)) hSame
      | ipv6 address' _ _ hKey' =>
          rw [hKey'] at hSame
          exact absurd hSame append_ipv4_ne_append_ipv6
      | named hNone _ _ =>
          rw [hNone] at hAddress'
          cases hAddress'
  | ipv6 address _ _ hKey =>
      rw [hKey] at hSame ⊢
      cases keyed ip' with
      | ipv4 address' _ _ hKey' =>
          rw [hKey'] at hSame
          exact absurd hSame.symm append_ipv4_ne_append_ipv6
      | ipv6 address' _ _ hKey' =>
          rw [hKey'] at hSame ⊢
          have hText :
              (network address).text =
                (network address').text := by
            unfold networkText at hSame
            rw [List.append_assoc, List.append_assoc]
              at hSame
            exact eq_of_append_mark
              (slash_notMem_text _) (slash_notMem_text _)
              hSame
          rw [networkText, hText, networkText]
      | named hNone _ _ =>
          rw [hNone] at hAddress'
          cases hAddress'
  | named hNone _ _ =>
      rw [hNone] at hAddress
      cases hAddress

/- The keys are those of the clients. -/
theorem clientIpKey_keyedByClient :
    KeyedByClient clientIpKey := by
  constructor
  · intro ip ip' hSlash hSlash'
    exact ⟨clientOf_eq_of_key_eq hSlash hSlash',
      key_eq_of_clientOf_eq⟩
  · exact clientIpKey_clientIpKey
  · intro ip ip' rest rest' hAddress hAddress' hSame
    have hKey := key_eq_of_append hAddress hAddress' hSame
    constructor
    · exact clientOf_eq_of_key_eq
        (slash_notMem_of_ipAddress hAddress)
        (slash_notMem_of_ipAddress hAddress') hKey
    · rw [hKey] at hSame
      exact (List.cons.inj
        (List.append_cancel_left hSame)).2

example :
    clientIpKey "2001:DB8:1:2::7".toList =
      clientIpKey "2001:db8:1:2:0:ffff:0:9".toList := by
  decide

end Ip

end CrudAuth
