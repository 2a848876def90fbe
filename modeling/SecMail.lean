import SecMail.LTS.Basic
import SecMail.Context.Table
import SecMail.Text.Components
import SecMail.Store.Model
import SecMail.Store.Step
import SecMail.Store.Provenance
import SecMail.Store.Index
import SecMail.Store.Durable
import SecMail.Store.Screen
import SecMail.Store.Record
import SecMail.Store.Available
import SecMail.Store.Offline
import SecMail.Store.Attachment
import SecMail.Store.Intact
import SecMail.Sql.Tokenize
import SecMail.Sql.Literals
import SecMail.Sql.UpdateMail
import SecMail.Sql.Connection
import SecMail.Sql.Helper
import SecMail.Sql.Leak
import SecMail.Sql.ReadBack
import SecMail.Master.Model
import SecMail.Master.Step
import SecMail.Master.Stale
import SecMail.Master.Inbox
import SecMail.Master.Paging
import SecMail.Master.Loading
import SecMail.Master.Rows
import SecMail.Master.Switch
import SecMail.Master.Built
import SecMail.Master.Failure
import SecMail.LTS.Rank
import SecMail.Async.Queue
import SecMail.Async.Order
import SecMail.Async.Progress
import SecMail.Interval.Basic
import SecMail.IndexSet.Model
import SecMail.IndexSet.Search
import SecMail.IndexSet.Add
import SecMail.IndexSet.Remove
import SecMail.IndexSet.Runs
import SecMail.IndexSet.Convert
import SecMail.Imap.Connection
import SecMail.Imap.Session
import SecMail.Imap.Operations
import SecMail.Imap.Invariant
import SecMail.Imap.Rules
import SecMail.Imap.Methods
import SecMail.Imap.Runs
