import Srnd.Redis.ZSet
import Mathlib.Data.Finset.Basic

/-!
# The key space of the Redis index

`redis.go` keeps the metadata index in one Redis database.  Every key starts
with `NNTP::` and then with one of the prefixes declared at the top of the
file (`Article::`, `ThreadPostsWKR::`, `HeaderKR::` and so on).  No prefix is
a prefix of another one followed by a member name, so two key families never
share a key, and `Index` gives each family a field of its own:

* a hash family is a map to an optional record, whose fields are the fields
  the code writes with `HMSET` or `HSETNX`;
* a set family is a map to a `Finset`, with the empty set for an absent key;
* a sorted-set family is a map to a `ZSet`.

The field comments name the Redis key of each family.

`Article` is the `NNTPMessage` interface as `RegisterArticle` reads it.  The
interface and its implementation are not in the sources.  The reference is
the one field that decides the thread role: `OP` is modelled from the spec,
which says an OP article is the one whose reference is empty.

The families of bans, logins, encrypted addresses and the article key of
signed posts other than `ArticleKey::` are not here: no function of this
model reads them.  The range bans are modelled on their own in
`Srnd.Redis.IPBan`.
-/

namespace Srnd.Redis

/-- One attachment of an article, as `RegisterArticle` reads it. -/
structure Attachment where
  /-- `hex.EncodeToString(att.Hash())`, the hex SHA-512 of the bytes. -/
  hash : String
  /-- `att.Filename()`. -/
  filename : String
  /-- `att.Filepath()`, the storage name under the attachment directory. -/
  filepath : String
  deriving DecidableEq, Repr

/-- The accessors of `NNTPMessage` that `RegisterArticle` calls. -/
structure Article where
  messageID : String
  newsgroup : String
  reference : String
  name : String
  subject : String
  path : String
  posted : Int
  message : String
  addr : String
  sage : Bool
  /-- `Headers()`, an `ArticleHeaders` map from a name to its values. -/
  headers : List (String × List String)
  attachments : List Attachment
  deriving DecidableEq, Repr

/-- Modelled from the spec: `NNTPMessage.OP` (not in the sources) holds for the
root of a thread, the article whose reference is empty. -/
def Article.OP (a : Article) : Bool := decide (a.reference = "")

/-- The hash `NNTP::Article::<msgid>`. -/
structure ArticleRecord where
  msgid : String
  messageIdHash : String
  messageNewsgroup : String
  timeObtained : Int
  messageRefId : String
  deriving DecidableEq, Repr

/-- The hash `NNTP::ArticlePost::<msgid>`.  `time_posted` is kept as the number
that `strconv.Itoa` writes and `strconv.Atoi` reads back. -/
structure ArticlePostRecord where
  newsgroup : String
  messageId : String
  refId : String
  name : String
  subject : String
  path : String
  timePosted : Int
  message : String
  addr : String
  deriving DecidableEq, Repr

/-- The hash `NNTP::Attachment::<sha>`. -/
structure AttachmentRecord where
  messageId : String
  shaHash : String
  filename : String
  filepath : String
  deriving DecidableEq, Repr

/-- The key space of the index. -/
structure Index where
  /-- `NNTP::Article::<msgid>`. -/
  article : String → Option ArticleRecord
  /-- `NNTP::ArticlePost::<msgid>`. -/
  articlePost : String → Option ArticlePostRecord
  /-- `NNTP::ArticleKey::<msgid>`, the pubkey of a signed article. -/
  articleKey : String → Option String
  /-- `NNTP::HashMessageID::<hash>`. -/
  hashMessageID : String → Option String
  /-- `NNTP::Attachment::<sha>`. -/
  attachment : String → Option AttachmentRecord
  /-- `NNTP::GroupPostTimeWKR`. -/
  groupPostTime : ZSet
  /-- `NNTP::GroupArticlePostTimeWKR::<group>`. -/
  groupArticlePostTime : String → ZSet
  /-- `NNTP::GroupThreadPostTimeWKR::<group>`. -/
  groupThreadPostTime : String → ZSet
  /-- `NNTP::GroupThreadBumpTimeWKR::<group>`. -/
  groupThreadBumpTime : String → ZSet
  /-- `NNTP::ThreadPostsWKR::<root>`. -/
  threadPosts : String → ZSet
  /-- `NNTP::ArticleWKR`. -/
  articleWKR : ZSet
  /-- `NNTP::ThreadBumpTimeWKR`. -/
  threadBumpTime : ZSet
  /-- `NNTP::HeaderKR::<header>`. -/
  headerKR : String → Finset String
  /-- `NNTP::MessageIDHeaderKR::<msgid>`. -/
  messageIDHeaderKR : String → Finset String
  /-- `NNTP::ArticleAttachmentsKR::<msgid>`. -/
  articleAttachments : String → Finset String
  /-- `NNTP::AttachmentArticlesKR::<sha>`. -/
  attachmentArticles : String → Finset String
  /-- `NNTP::GroupModKeysKR::<group>`. -/
  groupModKeys : String → Finset String
  /-- `NNTP::ModKey::<key>`, keyed by what follows the prefix:
  `<pubkey>::Group::<group>::Permissions`. -/
  modPermissions : String → Finset String

namespace Index

/-- The empty database. -/
def empty : Index where
  article _ := none
  articlePost _ := none
  articleKey _ := none
  hashMessageID _ := none
  attachment _ := none
  groupPostTime := ZSet.empty
  groupArticlePostTime _ := ZSet.empty
  groupThreadPostTime _ := ZSet.empty
  groupThreadBumpTime _ := ZSet.empty
  threadPosts _ := ZSet.empty
  articleWKR := ZSet.empty
  threadBumpTime := ZSet.empty
  headerKR _ := ∅
  messageIDHeaderKR _ := ∅
  articleAttachments _ := ∅
  attachmentArticles _ := ∅
  groupModKeys _ := ∅
  modPermissions _ := ∅

/-- A message-id is live when its `NNTP::Article::` record exists. -/
def Live (s : Index) (m : String) : Prop := (s.article m).isSome

instance (s : Index) (m : String) : Decidable (s.Live m) :=
  inferInstanceAs (Decidable ((s.article m).isSome = true))

end Index

/-- The header key `Name::<name>::Value::<value>` under `HeaderKR::`. -/
def headerKey (name value : String) : String :=
  "Name::" ++ name ++ "::Value::" ++ value

private theorem append_cons_eq_append_cons {c : Char} :
    ∀ {l₁ l₂ t₁ t₂ : List Char}, c ∉ l₁ → c ∉ l₂ →
      l₁ ++ c :: t₁ = l₂ ++ c :: t₂ → l₁ = l₂ ∧ t₁ = t₂
  | [], [], _, _, _, _, h => by simpa using h
  | [], d :: l₂, _, _, _, h₂, h => by
    simp only [List.nil_append, List.cons_append, List.cons.injEq] at h
    exact absurd (h.1 ▸ List.mem_cons_self _ _) h₂
  | d :: l₁, [], _, _, h₁, _, h => by
    simp only [List.nil_append, List.cons_append, List.cons.injEq] at h
    exact absurd (h.1 ▸ List.mem_cons_self _ _) h₁
  | d :: l₁, e :: l₂, _, _, h₁, h₂, h => by
    simp only [List.cons_append, List.cons.injEq] at h
    obtain ⟨rfl, h⟩ := h
    have := append_cons_eq_append_cons (List.not_mem_of_not_mem_cons h₁)
      (List.not_mem_of_not_mem_cons h₂) h
    exact ⟨congrArg _ this.1, this.2⟩

/-- A header key names its header and value when header names have no `:`;
values may hold anything. -/
theorem headerKey_inj {n₁ n₂ v₁ v₂ : String} (h₁ : ':' ∉ n₁.toList)
    (h₂ : ':' ∉ n₂.toList) (h : headerKey n₁ v₁ = headerKey n₂ v₂) :
    n₁ = n₂ ∧ v₁ = v₂ := by
  simp only [headerKey, String.ext_iff, String.data_append, List.append_assoc] at h
  obtain ⟨hn, hv⟩ := append_cons_eq_append_cons h₁ h₂ (List.append_cancel_left h)
  exact ⟨String.ext hn, String.ext (by simpa using hv)⟩

/-- A fixed prefix keeps strings apart. -/
theorem append_left_injective (p : String) : Function.Injective (p ++ ·) := fun _ _ h =>
  String.ext (List.append_cancel_left (congrArg String.data h))

theorem append_ne_empty_left {p : String} (hp : p ≠ "") (m : String) : p ++ m ≠ "" := fun h =>
  hp (String.ext (List.append_eq_nil.1 (congrArg String.data h)).1)

/-- The key of a moderator's permissions in one group, after `ModKey::`. -/
def modPermissionsKey (pubkey group : String) : String :=
  pubkey ++ "::Group::" ++ group ++ "::Permissions"

/-- A permission key names its key and group when keys have no `:`; groups
may hold anything. -/
theorem modPermissionsKey_inj {p₁ p₂ g₁ g₂ : String} (h₁ : ':' ∉ p₁.toList)
    (h₂ : ':' ∉ p₂.toList) (h : modPermissionsKey p₁ g₁ = modPermissionsKey p₂ g₂) :
    p₁ = p₂ ∧ g₁ = g₂ := by
  have hsep : "::Group::".data = ':' :: ":Group::".data := rfl
  simp only [modPermissionsKey, String.ext_iff, String.data_append, List.append_assoc, hsep,
    List.cons_append] at h
  obtain ⟨hp, hg⟩ := append_cons_eq_append_cons h₁ h₂ h
  exact ⟨String.ext hp, String.ext (by simpa using hg)⟩

/-- The header keys `RegisterArticle` files an article under: one for every
value of every header. -/
def Article.headerKeys (a : Article) : List String :=
  a.headers.flatMap fun h => h.2.map (headerKey h.1)

/-- The attachment hashes of an article, in order. -/
def Article.attachmentHashes (a : Article) : List String :=
  a.attachments.map Attachment.hash

end Srnd.Redis
