import Paranoid.CsrfTokens

namespace Paranoid.LoopbackHosts

open CookieModel CsrfModel CsrfRequests CsrfTokens IpAddresses List TrimmedText
open MnemonicModel (isWhitespace)
open SetCookieText (lowercase)
open Utf8Text (Text)

section Reading

variable {α : Type} {text rest : Text}

def IsAddressChar (c : Char) : Prop := (toDigit 16 c).isSome = true ∨ c = ':' ∨ c = '.'

/-- Allowed characters with so many colons have been read of a text, and this is left of it. -/
def Took (allowed : Char → Prop) (colons : Nat) (text rest : Text) : Prop :=
  ∃ used : Text, text = used ++ rest ∧ (∀ c ∈ used, allowed c) ∧ colons ≤ used.count ':'

theorem Took.zero {allowed : Char → Prop} : Took allowed 0 text text := ⟨[], rfl, nofun, Nat.zero_le _⟩

theorem Took.trans {allowed : Char → Prop} {m n : Nat} {middle : Text} (h : Took allowed m text middle)
    (h' : Took allowed n middle rest) : Took allowed (m + n) text rest := by
  obtain ⟨used, rfl, hused, hm⟩ := h
  obtain ⟨more, rfl, hmore, hn⟩ := h'
  refine ⟨used ++ more, by rw [append_assoc], fun c hc => ?_, ?_⟩
  · exact (mem_append.1 hc).elim (hused c) (hmore c)
  · rw [count_append]
    exact Nat.add_le_add hm hn

theorem Took.weaken {allowed wider : Char → Prop} {m n : Nat}
    (h : Took allowed m text rest) (hwider : ∀ c, allowed c → wider c)
    (hle : n ≤ m) : Took wider n text rest := by
  obtain ⟨used, heq, hused, hm⟩ := h
  exact ⟨used, heq, fun c hc => hwider c (hused c hc), hle.trans hm⟩

theorem Took.char {allowed : Char → Prop} {c : Char} (hc : allowed c) :
    Took allowed 0 (c :: text) text :=
  ⟨[c], rfl, fun _ h => mem_singleton.1 h ▸ hc, Nat.zero_le _⟩

theorem Took.colon {allowed : Char → Prop} (hc : allowed ':') : Took allowed 1 (':' :: text) text :=
  ⟨[':'], rfl, fun _ h => mem_singleton.1 h ▸ hc, by simp⟩

/-- A text that is read to its end is all of what was read. -/
theorem Took.whole {allowed : Char → Prop} {n : Nat} (h : Took allowed n text []) :
    (∀ c ∈ text, allowed c) ∧ n ≤ text.count ':' := by
  obtain ⟨used, rfl, hused, hn⟩ := h
  rw [append_nil]
  exact ⟨hused, hn⟩

theorem drop_length_takeWhile (p : α → Bool) (text : List α) :
    text.drop (text.takeWhile p).length = text.dropWhile p := by
  conv_lhs => arg 2; rw [← takeWhile_append_dropWhile (p := p) (l := text)]
  exact drop_left

theorem took_readNumber {radix maxDigits : Nat} {allowZeroPrefix : Bool} {n : Nat}
    (h : readNumber radix maxDigits allowZeroPrefix text = some (n, rest)) :
    Took (fun c => (toDigit radix c).isSome = true) 0 text rest := by
  obtain ⟨-, hread⟩ := Option.ite_none_left_eq_some.1 h
  obtain ⟨-, rfl⟩ := Prod.ext_iff.1 (Option.some.inj hread)
  refine ⟨text.takeWhile fun c => (toDigit radix c).isSome, ?_, fun c hc => ?_, Nat.zero_le _⟩
  swap
  · exact mem_takeWhile_imp (p := fun c => (toDigit radix c).isSome) hc
  change text = _ ++ text.drop _
  rw [drop_length_takeWhile, takeWhile_append_dropWhile]

theorem readGivenChar_eq_some {c : Char} (h : readGivenChar c text = some rest) : text = c :: rest := by
  cases text with
  | nil => cases h
  | cons first text =>
      obtain ⟨rfl, hrest⟩ := Option.ite_none_right_eq_some.1 h
      rw [Option.some.inj hrest]

theorem took_readSeparator {allowed : Char → Prop} {separator : Char}
    (hseparator : allowed separator) {first : Bool}
    {read : Text → Option (α × Text)}
    (hread : ∀ {text a rest}, read text = some (a, rest) → Took allowed 0 text rest) {a : α}
    (h : readSeparator separator first read text = some (a, rest)) :
    Took allowed (if separator = ':' ∧ first = false then 1 else 0) text rest := by
  cases first with
  | true =>
      rw [if_neg (by simp)]
      exact hread h
  | false =>
      obtain ⟨behind, hgiven, hbehind⟩ := Option.bind_eq_some_iff.1 h
      obtain rfl := readGivenChar_eq_some hgiven
      by_cases hcolon : separator = ':'
      · subst hcolon
        rw [if_pos ⟨rfl, rfl⟩]
        exact (Took.colon hseparator).trans (hread hbehind)
      · rw [if_neg fun hboth => hcolon hboth.1]
        exact (Took.char hseparator).trans (hread hbehind)

def IsDottedChar (c : Char) : Prop := (toDigit 10 c).isSome = true ∨ c = '.'

theorem took_readOctet {octet : UInt8} (h : readOctet text = some (octet, rest)) :
    Took IsDottedChar 0 text rest := by
  obtain ⟨⟨n, behind⟩, hn, h⟩ := Option.bind_eq_some_iff.1 h
  obtain ⟨-, h⟩ := Option.ite_none_right_eq_some.1 h
  obtain ⟨-, rfl⟩ := Prod.ext_iff.1 (Option.some.inj h)
  exact (took_readNumber hn).weaken (fun _ => Or.inl) le_rfl

theorem took_readIpv4Addr {ip : Ipv4Addr} (h : readIpv4Addr text = some (ip, rest)) :
    Took IsDottedChar 0 text rest := by
  obtain ⟨⟨first, text₁⟩, h₁, h⟩ := Option.bind_eq_some_iff.1 h
  obtain ⟨⟨second, text₂⟩, h₂, h⟩ := Option.bind_eq_some_iff.1 h
  obtain ⟨⟨third, text₃⟩, h₃, h⟩ := Option.bind_eq_some_iff.1 h
  obtain ⟨⟨fourth, text₄⟩, h₄, h⟩ := Option.bind_eq_some_iff.1 h
  obtain ⟨-, rfl⟩ := Prod.ext_iff.1 (Option.some.inj h)
  have hdot : IsDottedChar '.' := .inr rfl
  have hfirst := took_readSeparator hdot took_readOctet h₁
  have hsecond := took_readSeparator hdot took_readOctet h₂
  have hthird := took_readSeparator hdot took_readOctet h₃
  have hfourth := took_readSeparator hdot took_readOctet h₄
  exact ((hfirst.trans hsecond).trans hthird).trans hfourth

theorem toDigit_isSome_of_le {radix wider : Nat} (hle : radix ≤ wider)
    {c : Char} (h : (toDigit radix c).isSome = true) :
    (toDigit wider c).isSome = true := by
  unfold toDigit at h ⊢
  split_ifs at h ⊢ <;> simp_all <;> omega

theorem IsDottedChar.isAddressChar {c : Char} (h : IsDottedChar c) : IsAddressChar c :=
  h.imp (toDigit_isSome_of_le (by decide)) Or.inr

theorem took_readSegment {segment : UInt16} (h : readSegment text = some (segment, rest)) :
    Took IsAddressChar 0 text rest := by
  obtain ⟨⟨n, behind⟩, hn, h⟩ := Option.bind_eq_some_iff.1 h
  obtain ⟨-, rfl⟩ := Prod.ext_iff.1 (Option.some.inj h)
  exact (took_readNumber hn).weaken (fun _ => Or.inl) le_rfl

/-- There is a colon in front of every group but the first, and an embedded address counts for two groups. -/
theorem took_readGroups {limit : Nat} {first embedded : Bool} {groups : List UInt16}
    (h : readGroups limit first text = (groups, embedded, rest)) :
    ∃ colons, Took IsAddressChar colons text rest ∧
      groups.length ≤ colons + if first then 2 else 1 := by
  induction limit generalizing first embedded groups text rest with
  | zero =>
      cases h
      exact ⟨0, .zero, Nat.zero_le _⟩
  | succ limit ih =>
      rw [readGroups] at h
      have hcolon : IsAddressChar ':' := .inr (.inl rfl)
      cases hembedded : if 0 < limit then readSeparator ':' first readIpv4Addr text else none with
      | some read =>
          obtain ⟨ip, behind⟩ := read
          rw [hembedded] at h
          obtain ⟨-, hip⟩ := Option.ite_none_right_eq_some.1 hembedded
          cases h
          refine ⟨_, took_readSeparator hcolon
            (fun hread => (took_readIpv4Addr hread).weaken ?_ le_rfl) hip, ?_⟩
          · exact fun _ => IsDottedChar.isAddressChar
          · cases first <;> simp
      | none =>
          rw [hembedded] at h
          cases hsegment : readSeparator ':' first readSegment text with
          | none =>
              rw [hsegment] at h
              cases h
              exact ⟨0, .zero, Nat.zero_le _⟩
          | some read =>
              obtain ⟨group, behind⟩ := read
              rw [hsegment] at h
              have htook := took_readSeparator hcolon took_readSegment hsegment
              obtain ⟨colons, hmore, hlength⟩ :=
                ih (show readGroups limit false behind = (_, _, _) from rfl)
              cases h
              refine ⟨_, htook.trans hmore, ?_⟩
              rw [length_cons]
              cases first <;> simp at hlength ⊢ <;> omega

theorem took_readIpv6Addr {ip : Ipv6Addr} (h : readIpv6Addr text = some (ip, rest)) :
    Took IsAddressChar 2 text rest := by
  rw [readIpv6Addr] at h
  rcases hread : readGroups 8 true text with ⟨head, embedded, behind⟩
  rw [hread] at h
  dsimp only at h
  obtain ⟨colons, hhead, hlength⟩ := took_readGroups hread
  by_cases height : head.length = 8
  · rw [if_pos height] at h
    obtain ⟨_, -, hjoined⟩ := Option.bind_eq_some_iff.1 h
    cases hjoined
    refine hhead.weaken (fun _ => id) ?_
    rw [height, if_pos rfl] at hlength
    omega
  · rw [if_neg height] at h
    cases embedded with
    | true => cases h
    | false =>
        obtain ⟨past, hpast, h₁⟩ := Option.bind_eq_some_iff.1 h
        obtain rfl := readGivenChar_eq_some hpast
        obtain ⟨between, hbetween, h₂⟩ := Option.bind_eq_some_iff.1 h₁
        obtain rfl := readGivenChar_eq_some hbetween
        rcases hreadTail : readGroups (8 - (head.length + 1)) true between with ⟨tail, _, behindTail⟩
        rw [hreadTail] at h₂
        obtain ⟨more, htail, -⟩ := took_readGroups hreadTail
        obtain ⟨_, -, hjoined⟩ := Option.bind_eq_some_iff.1 h₂
        cases hjoined
        have hcolon : IsAddressChar ':' := .inr (.inl rfl)
        refine (hhead.trans (((Took.colon hcolon).trans (Took.colon hcolon)).trans htail)).weaken
          (fun _ => id) ?_
        omega

theorem readIpAddr_of_parse {ip : IpAddr} (h : IpAddr.parse text = some ip) :
    readIpAddr text = some (ip, []) := by
  obtain ⟨⟨found, behind⟩, hread, hwhole⟩ := Option.bind_eq_some_iff.1 h
  obtain ⟨rfl, hfound⟩ := Option.ite_none_right_eq_some.1 hwhole
  cases hfound
  exact hread

theorem parse_v4 {ip : Ipv4Addr} (h : IpAddr.parse text = some (.v4 ip)) :
    ∀ c ∈ text, IsDottedChar c := by
  have hread := readIpAddr_of_parse h
  rw [readIpAddr] at hread
  cases hip : readIpv4Addr text with
  | none =>
      rw [hip] at hread
      obtain ⟨_, -, hread⟩ := Option.map_eq_some_iff.1 hread
      cases hread
  | some read =>
      obtain ⟨ip, behind⟩ := read
      rw [hip] at hread
      cases hread
      exact (took_readIpv4Addr hip).whole.1

theorem parse_v6 {ip : Ipv6Addr} (h : IpAddr.parse text = some (.v6 ip)) :
    (∀ c ∈ text, IsAddressChar c) ∧ 2 ≤ text.count ':' := by
  have hread := readIpAddr_of_parse h
  rw [readIpAddr] at hread
  cases hip : readIpv4Addr text with
  | none =>
      rw [hip] at hread
      obtain ⟨⟨ip, behind⟩, hsix, hread⟩ := Option.map_eq_some_iff.1 hread
      cases hread
      exact (took_readIpv6Addr hsix).whole
  | some read =>
      rw [hip] at hread
      cases hread

end Reading

section Gate

variable {text name port inside : Text}

inductive LoopbackName : Text → Prop
  | localhost {name : Text} (h : lowercase name = localhost) : LoopbackName name
  | v4 {name : Text} {ip : Ipv4Addr} (hip : IpAddr.parse name = some (.v4 ip)) (h : ip.isLoopback = true) : LoopbackName name
  | bracketed {inside : Text} {ip : IpAddr} (hip : IpAddr.parse inside = some ip) (h : ipIsLoopback ip = true) :
      LoopbackName ('[' :: inside ++ [']'])

inductive OptionalPort : Text → Prop
  | none : OptionalPort []
  | port {port : Text} (hne : port ≠ []) (hdigits : ∀ c ∈ port, c.isDigit = true) : OptionalPort (':' :: port)

/-- A name with or without a port, or an IPv6 address by itself. -/
inductive LoopbackHost : Text → Prop
  | named {name port : Text} (hname : LoopbackName name) (hport : OptionalPort port) : LoopbackHost (name ++ port)
  | bare {text : Text} {ip : Ipv6Addr} (hip : IpAddr.parse text = some (.v6 ip)) (h : ipIsLoopback (.v6 ip) = true) :
      LoopbackHost text

theorem isPort_iff : isPort port = true ↔ port ≠ [] ∧ ∀ c ∈ port, c.isDigit = true := by
  rw [isPort, Bool.and_eq_true, decide_eq_true_iff, all_eq_true]

theorem stripUnbracketedHostPort_eq_some : stripUnbracketedHostPort text = some name ↔
    text.count ':' = 1 ∧ name ≠ [] ∧ ∃ port, isPort port = true ∧
      ':' ∉ name ∧ text = name ++ ':' :: port := by
  rw [stripUnbracketedHostPort, Option.ite_none_left_eq_some, not_not, Option.bind_eq_some_iff]
  refine and_congr_right fun _ => ?_
  constructor
  · rintro ⟨⟨first, port⟩, hcut, h⟩
    obtain ⟨⟨hne, hport⟩, hname⟩ := Option.ite_none_right_eq_some.1 h
    obtain rfl := Option.some.inj hname
    exact ⟨hne, port, hport, cut_eq_some hcut⟩
  · rintro ⟨hne, port, hport, hname, rfl⟩
    exact ⟨(name, port), cut_append hname port, if_pos ⟨hne, hport⟩⟩

theorem stripBracketedIpv6Host_eq_some : stripBracketedIpv6Host text = some inside ↔
    ']' ∉ inside ∧ ∃ port, OptionalPort port ∧ text = '[' :: inside ++ [']'] ++ port := by
  constructor
  · intro h
    unfold stripBracketedIpv6Host at h
    split at h
    · next rest =>
        obtain ⟨⟨first, behind⟩, hcut, hafter⟩ := Option.bind_eq_some_iff.1 h
        obtain ⟨hinside, rfl⟩ := cut_eq_some hcut
        dsimp only at hafter
        split at hafter
        · cases hafter
          exact ⟨hinside, [], .none, by simp⟩
        · next port =>
            obtain ⟨hport, hsome⟩ := Option.ite_none_right_eq_some.1 hafter
            cases hsome
            obtain ⟨hne, hdigits⟩ := isPort_iff.1 hport
            exact ⟨hinside, ':' :: port, .port hne hdigits, by simp⟩
        · cases hafter
    · cases h
  · rintro ⟨hinside, port, hport, rfl⟩
    have hcut : cut ']' (inside ++ [']'] ++ port) = some (inside, port) := by
      rw [append_assoc]
      exact cut_append hinside port
    rw [cons_append, cons_append, stripBracketedIpv6Host, hcut, Option.bind_some]
    cases hport with
    | none => rfl
    | port hne hdigits => exact if_pos (isPort_iff.2 ⟨hne, hdigits⟩)

theorem stripBracketedIpv6Host_of_head (h : '[' ∉ text) : stripBracketedIpv6Host text = none := by
  unfold stripBracketedIpv6Host
  split
  · exact absurd mem_cons_self h
  · rfl

theorem not_mem_of_parse {c : Char} (hc : ¬IsAddressChar c)
    {ip : IpAddr} (h : IpAddr.parse text = some ip) : c ∉ text := by
  intro hmem
  cases ip with
  | v4 ip => exact hc (parse_v4 h c hmem).isAddressChar
  | v6 ip => exact hc ((parse_v6 h).1 c hmem)

theorem not_colon_of_parse {ip : Ipv4Addr} (h : IpAddr.parse text = some (.v4 ip)) : ':' ∉ text :=
  fun hmem => absurd (parse_v4 h _ hmem) (by unfold IsDottedChar; decide)

theorem openBracket_not_mem {ip : IpAddr} (h : IpAddr.parse text = some ip) : '[' ∉ text :=
  not_mem_of_parse (by unfold IsAddressChar; decide) h

theorem closeBracket_not_mem {ip : IpAddr} (h : IpAddr.parse text = some ip) : ']' ∉ text :=
  not_mem_of_parse (by unfold IsAddressChar; decide) h

theorem not_mem_of_lowercase {c : Char} (h : lowercase name = localhost)
    (hc : c.toLower ∉ localhost) : c ∉ name :=
  fun hmem => hc (h ▸ mem_map_of_mem hmem)

theorem ne_nil_of_lowercase (h : lowercase name = localhost) : name ≠ [] := by
  rintro rfl
  exact absurd h (by decide)

theorem not_colon_of_port (h : ∀ c ∈ port, c.isDigit = true) : ':' ∉ port :=
  fun hmem => absurd (h _ hmem) (by decide)

theorem count_colon_of_port (hname : ':' ∉ name) (hdigits : ∀ c ∈ port, c.isDigit = true) :
    (name ++ ':' :: port).count ':' = 1 := by
  rw [count_append, count_cons_self, count_eq_zero.2 hname, count_eq_zero.2 (not_colon_of_port hdigits)]

/-- What the gate looks up for an address is read as an address by itself, one in brackets, or an IPv4 address with a port. -/
theorem parseHostIp_loopback (h : (parseHostIp text).any ipIsLoopback = true) : LoopbackHost text := by
  rw [Option.any_eq_true] at h
  obtain ⟨ip, hip, hloopback⟩ := h
  rw [parseHostIp] at hip
  cases hstrip : stripBracketedIpv6Host text with
  | some inside =>
      rw [hstrip] at hip
      obtain ⟨-, port, hport, rfl⟩ := stripBracketedIpv6Host_eq_some.1 hstrip
      exact .named (.bracketed hip hloopback) hport
  | none =>
      rw [hstrip] at hip
      cases hwhole : IpAddr.parse text with
      | some found =>
          rw [hwhole] at hip
          obtain rfl := Option.some.inj hip
          cases found with
          | v4 ip =>
              have hnamed := LoopbackHost.named (.v4 hwhole hloopback) .none
              rwa [append_nil] at hnamed
          | v6 ip => exact .bare hwhole hloopback
      | none =>
          rw [hwhole] at hip
          obtain ⟨hcount, hcut⟩ := Option.ite_none_right_eq_some.1 hip
          obtain ⟨⟨name, port⟩, hcut, hparse⟩ := Option.bind_eq_some_iff.1 hcut
          obtain ⟨hport, hparse⟩ := Option.ite_none_right_eq_some.1 hparse
          obtain ⟨hname, rfl⟩ := cut_eq_some hcut
          obtain ⟨hne, hdigits⟩ := isPort_iff.1 hport
          cases ip with
          | v4 ip => exact .named (.v4 hparse hloopback) (.port hne hdigits)
          | v6 ip =>
              -- there is no IPv6 address without a colon
              have hcolons := (parse_v6 hparse).2
              rw [count_eq_zero.2 hname] at hcolons
              omega

theorem parse_with_port (hname : ':' ∉ name) (hdigits : ∀ c ∈ port, c.isDigit = true) :
    IpAddr.parse (name ++ ':' :: port) = none := by
  refine Option.eq_none_iff_forall_ne_some.2 fun ip hip => ?_
  cases ip with
  | v4 ip => exact not_colon_of_parse hip (mem_append_right _ mem_cons_self)
  | v6 ip =>
      have hcolons := (parse_v6 hip).2
      rw [count_colon_of_port hname hdigits] at hcolons
      omega

theorem parseHostIp_v4 {ip : Ipv4Addr}
    (hip : IpAddr.parse name = some (.v4 ip)) (hport : OptionalPort port) :
    parseHostIp (name ++ port) = some (.v4 ip) := by
  have hopen := openBracket_not_mem hip
  have hcolon := not_colon_of_parse hip
  cases hport with
  | none => rw [append_nil, parseHostIp, stripBracketedIpv6Host_of_head hopen, hip]
  | @port port hne hdigits =>
      have hmem : '[' ∉ name ++ ':' :: port := by
        rw [mem_append, mem_cons]
        rintro (h | h | h)
        · exact hopen h
        · cases h
        · exact absurd (hdigits _ h) (by decide)
      rw [parseHostIp, stripBracketedIpv6Host_of_head hmem, parse_with_port hcolon hdigits]
      change (if _ then _ else none) = _
      rw [if_pos (count_colon_of_port hcolon hdigits), cut_append hcolon, Option.bind_some]
      exact (if_pos (isPort_iff.2 ⟨hne, hdigits⟩)).trans hip

theorem parseHostIp_bracketed {ip : IpAddr}
    (hip : IpAddr.parse inside = some ip) (hport : OptionalPort port) :
    parseHostIp ('[' :: inside ++ [']'] ++ port) = some ip := by
  rw [parseHostIp, stripBracketedIpv6Host_eq_some.2 ⟨closeBracket_not_mem hip, port, hport, rfl⟩]
  exact hip

theorem parseHostIp_bare {ip : Ipv6Addr} (hip : IpAddr.parse text = some (.v6 ip)) :
    parseHostIp text = some (.v6 ip) := by
  rw [parseHostIp, stripBracketedIpv6Host_of_head (openBracket_not_mem hip), hip]

theorem loopbackHost_iff :
    (lowercase text = localhost ∨ (stripUnbracketedHostPort text).any (lowercase · = localhost) = true ∨
    (parseHostIp text).any ipIsLoopback = true) ↔ LoopbackHost text := by
  constructor
  · rintro (h | h | h)
    · have hnamed := LoopbackHost.named (.localhost h) .none
      rwa [append_nil] at hnamed
    · obtain ⟨name, hname, hlocal⟩ := (Option.any_eq_true _ _).1 h
      obtain ⟨-, -, port, hport, -, rfl⟩ := stripUnbracketedHostPort_eq_some.1 hname
      obtain ⟨hne, hdigits⟩ := isPort_iff.1 hport
      exact .named (.localhost (of_decide_eq_true hlocal)) (.port hne hdigits)
    · exact parseHostIp_loopback h
  · intro h
    cases h with
    | bare hip h =>
        rw [parseHostIp_bare hip]
        exact .inr (.inr h)
    | named hname hport =>
        cases hname with
        | localhost h =>
            cases hport with
            | none =>
                rw [append_nil]
                exact .inl h
            | port hne hdigits =>
                have hcolon := not_mem_of_lowercase h (c := ':') (by decide)
                rw [stripUnbracketedHostPort_eq_some.2
                  ⟨count_colon_of_port hcolon hdigits, ne_nil_of_lowercase h,
                    _, isPort_iff.2 ⟨hne, hdigits⟩, hcolon, rfl⟩]
                exact .inr (.inl (decide_eq_true h))
        | v4 hip h =>
            rw [parseHostIp_v4 hip hport]
            exact .inr (.inr h)
        | bracketed hip h =>
            rw [parseHostIp_bracketed hip hport]
            exact .inr (.inr h)

/-- A name with no colon and no opening bracket, or anything in brackets. -/
inductive HostName : Text → Prop
  | plain {name : Text} (hopen : '[' ∉ name) (hcolon : ':' ∉ name) : HostName name
  | bracketed {inside : Text} (h : ']' ∉ inside) : HostName ('[' :: inside ++ [']'])

/-- The name is what a client connects to, with whatever stands for a port behind it. -/
def NamesHost (text name : Text) : Prop :=
  HostName name ∧ (text = name ∨ ∃ port, ':' ∉ port ∧ text = name ++ ':' :: port)

def hostPart : Text → Text
  | '[' :: rest => '[' :: rest.takeWhile (· ≠ ']') ++ [']']
  | text => text.takeWhile (· ≠ ':')

theorem NamesHost.eq_hostPart (h : NamesHost text name) : name = hostPart text := by
  obtain ⟨hname, htext⟩ := h
  cases hname with
  | plain hopen hcolon =>
      have hhead : ∀ rest, text ≠ '[' :: rest := by
        rintro rest rfl
        obtain hname | ⟨port, -, hname⟩ := htext
        · exact hopen (hname ▸ mem_cons_self)
        · cases name with
          | nil => cases hname
          | cons c name => exact hopen ((cons.inj hname).1 ▸ mem_cons_self)
      have htake : text.takeWhile (· ≠ ':') = name := by
        obtain rfl | ⟨port, -, rfl⟩ := htext
        · exact takeWhile_of_not_mem hcolon
        · exact takeWhile_append_separator hcolon port
      unfold hostPart
      split
      · next rest => exact absurd rfl (hhead rest)
      · exact htake.symm
  | @bracketed inside hinside =>
      have htail : ∃ behind, text = '[' :: (inside ++ ']' :: behind) := by
        obtain rfl | ⟨port, -, rfl⟩ := htext
        · exact ⟨[], rfl⟩
        · exact ⟨':' :: port, by simp⟩
      obtain ⟨behind, rfl⟩ := htail
      rw [hostPart, takeWhile_append_separator hinside]

theorem LoopbackName.namesHost (h : LoopbackName name) (hport : OptionalPort port) :
    NamesHost (name ++ port) name := by
  refine ⟨?_, ?_⟩
  · cases h with
    | localhost h =>
        exact .plain (not_mem_of_lowercase h (by decide)) (not_mem_of_lowercase h (by decide))
    | v4 hip h => exact .plain (openBracket_not_mem hip) (not_colon_of_parse hip)
    | bracketed hip h => exact .bracketed (closeBracket_not_mem hip)
  · cases hport with
    | none => exact .inl (append_nil name)
    | port hne hdigits => exact .inr ⟨_, not_colon_of_port hdigits, rfl⟩

theorem loopbackName_of_namesHost (h : LoopbackHost text) (hnames : NamesHost text name) :
    LoopbackName name := by
  cases h with
  | named hloopback hport => rwa [hnames.eq_hostPart, ← (hloopback.namesHost hport).eq_hostPart]
  | bare hip h =>
      -- an address by itself has two colons and no bracket, and so no name
      obtain ⟨hname, htext⟩ := hnames
      have hcolons := (parse_v6 hip).2
      cases hname with
      | plain hopen hcolon =>
          obtain rfl | ⟨port, hport, rfl⟩ := htext
          · rw [count_eq_zero.2 hcolon] at hcolons
            omega
          · rw [count_append, count_cons_self, count_eq_zero.2 hcolon, count_eq_zero.2 hport] at hcolons
            omega
      | bracketed hinside =>
          refine absurd ?_ (openBracket_not_mem hip)
          obtain rfl | ⟨port, -, rfl⟩ := htext
          · exact mem_cons_self
          · exact mem_cons_self

/-- The gate lets through the loopback hosts, and none that names another host. -/
theorem isLocalhostHost_iff (host : Text) :
    (isLocalhostHost host = true ↔ LoopbackHost (trim isWhitespace host)) ∧
      (isLocalhostHost host = true → ∀ name,
        NamesHost (trim isWhitespace host) name → LoopbackName name) ∧
      ∀ libraries answers request, (requestHost libraries.crates request).getD [] = host →
        answers.isDevelopment = true →
        (CsrfProtector.validateDevelopmentRequestHostIsLocalhost libraries answers request = .ok () ↔
          LoopbackHost (trim isWhitespace host)) := by
  have hiff : isLocalhostHost host = true ↔ LoopbackHost (trim isWhitespace host) := by
    rw [← loopbackHost_iff, isLocalhostHost, Bool.or_eq_true,
      Bool.or_eq_true, decide_eq_true_iff, or_assoc]
  refine ⟨hiff, fun h name => loopbackName_of_namesHost (hiff.1 h),
    fun libraries answers request hhost hdevelopment => ?_⟩
  rw [validateHost_eq_ok, HostRule, hhost, ← hiff]
  exact ⟨fun h => h hdevelopment, fun h _ => h⟩

example : isLocalhostHost " LocalHost:80".toList = true := by decide

example : isLocalhostHost "127.0.0.1.example:80".toList = false := by decide

end Gate

end Paranoid.LoopbackHosts
