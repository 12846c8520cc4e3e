import SafeerApi.Lib.Reach
import SafeerApi.Lib.Joined
import SafeerApi.Lib.Like
import SafeerApi.Lib.Table
import SafeerApi.Lib.Forest
import SafeerApi.Lib.DirtyWrite
import SafeerApi.Lib.UniqueTable
import SafeerApi.Lib.Forwarding
import SafeerApi.Common.Problem
import SafeerApi.Common.ListParams
import SafeerApi.Common.SqlNumeric
import SafeerApi.Common.Schema
import SafeerApi.Common.Slug
import SafeerApi.Lib.Paging
import SafeerApi.Lib.DelimitedText
import SafeerApi.Common.Csv
import SafeerApi.Common.GeneratedSlugs
import SafeerApi.Cache.Service
import SafeerApi.Cache.Index
import SafeerApi.Cache.Operations
import SafeerApi.Cache.Coherence
import SafeerApi.Cache.Interceptor
import SafeerApi.Public.Lists
import SafeerApi.Cache.KeySoundness
import SafeerApi.Cache.History
import SafeerApi.Accounts.Tables
import SafeerApi.Accounts.Users
import SafeerApi.Accounts.Auth
import SafeerApi.Accounts.Lockout
import SafeerApi.Accounts.SessionEnding
import SafeerApi.Accounts.AdminCover
import SafeerApi.Accounts.LinkSpending
import SafeerApi.Accounts.SelfProtection
import SafeerApi.Accounts.StatusMachine
import SafeerApi.Accounts.PasswordChange
import SafeerApi.Crud.Kernel
import SafeerApi.Crud.LostUpdates
import SafeerApi.Crud.Reorder
import SafeerApi.OrgChart.TreeGuard
import SafeerApi.OrgChart.Positions
import SafeerApi.OrgChart.Requests
import SafeerApi.OrgChart.Concurrent
import SafeerApi.OrgChart.GuardRuns
import SafeerApi.OrgChart.PublicChart
import SafeerApi.SiteSettings.Settings
import SafeerApi.SiteSettings.LicenceColumns
import SafeerApi.Licences.Licences
import SafeerApi.Licences.Transactions
import SafeerApi.Mail.Service
import SafeerApi.Mail.Delivery
import SafeerApi.Mail.Stranded
import SafeerApi.Mail.Transport
import SafeerApi.Mail.Templates
import SafeerApi.News.Posts
import SafeerApi.Redirects.Redirects
import SafeerApi.Redirects.Effects
import SafeerApi.Redirects.OneHop
import SafeerApi.Redirects.ServedPaths
import SafeerApi.Redirects.PublishedDates
import SafeerApi.Redirects.Collated
import SafeerApi.Accounts.PreviewToken
import SafeerApi.Public.NewsDetail
import SafeerApi.Public.LocaleCollapse
import SafeerApi.Public.ShownLanguage
import SafeerApi.Public.Drafts
import SafeerApi.Newsletter.Tokens
import SafeerApi.Newsletter.SignedLinks
import SafeerApi.Newsletter.Subscribers
import SafeerApi.Newsletter.Consent
import SafeerApi.Newsletter.Links
import SafeerApi.Messages.Messages
import SafeerApi.Maintenance.Retention
import SafeerApi.Migrations.EncryptionKey
import SafeerApi.Messages.Inbox
import SafeerApi.Messages.Replies
import SafeerApi.Messages.Archive
import SafeerApi.Redirects.Concurrent
import SafeerApi.Lib.History
import SafeerApi.Migrations.Runner
import SafeerApi.Migrations.Lawful
import SafeerApi.Mail.Retries
import SafeerApi.Lib.Backslash
import SafeerApi.Mail.RenderTemplate
import SafeerApi.Lib.MarkdownLines
import SafeerApi.Mail.BlockStarts
import SafeerApi.Mail.Entries
import SafeerApi.Media.Assets
import SafeerApi.Files.Content
import SafeerApi.Files.Gate
import SafeerApi.Files.Withdrawal
import SafeerApi.Media.Upload
import SafeerApi.Media.Library
import SafeerApi.Media.Agreement
import SafeerApi.Media.Completion
import SafeerApi.Lists.Routes
import SafeerApi.Lists.Walks
import SafeerApi.Lists.Search
import SafeerApi.Lib.PercentEncoding
import SafeerApi.Files.Names
import SafeerApi.Lib.ReplaceAll
import SafeerApi.Logging.TwoLogs
import SafeerApi.Logging.Structured
import SafeerApi.Site.Tables
import SafeerApi.Site.Routes
import SafeerApi.Site.Writes
import SafeerApi.Site.Freshness
import SafeerApi.Site.Unpublished
import SafeerApi.Site.Shown
import SafeerApi.Background.Work
import SafeerApi.Access.Guards
import SafeerApi.Access.RoleMatrix
import SafeerApi.Access.Sessions
import SafeerApi.Accounts.LoginLimiter
import SafeerApi.Storage.Drivers
import SafeerApi.Deploy.Release
import SafeerApi.Lib.Unwinding
import SafeerApi.Mail.Confidential
