import Outletbox.Library.Table
import Outletbox.Library.History
import Outletbox.Library.Fallible
import Outletbox.Library.Distinct
import Outletbox.Library.Replace
import Outletbox.Library.Thinned
import Outletbox.Library.Trimming
import Outletbox.Library.Interleaving
import Outletbox.Platform
import Outletbox.Time
import Outletbox.I18n
import Outletbox.Config
import Outletbox.Crypto
import Outletbox.Db
import Outletbox.Totp
import Outletbox.Webauthn
import Outletbox.Dbsc
import Outletbox.Services.Access
import Outletbox.Services.Addresses
import Outletbox.Services.Cases
import Outletbox.Services.Links
import Outletbox.Services.Auth
import Outletbox.Services.Passkeys
import Outletbox.Services.Sessions
import Outletbox.Services.Users
import Outletbox.Services.Groups
import Outletbox.Services.Items
import Outletbox.Http.Request
import Outletbox.Http.Deliver
import Outletbox.Http.Panel
import Outletbox.Http.Account
import Outletbox.Http.Cases
import Outletbox.Http.Work
import Outletbox.Http.Directory
import Outletbox.Http.App
import Outletbox.Http.Steps
import Outletbox.Access
import Outletbox.Endings
import Outletbox.Openings
import Outletbox.Codes
import Outletbox.Sharing
import Outletbox.Disclosure
import Outletbox.Admins
import Outletbox.Factors
import Outletbox.Replay
import Outletbox.Guesses
import Outletbox.Recovery
import Outletbox.Ceremonies
import Outletbox.Devices
import Outletbox.Budget
import Outletbox.Sweep
import Outletbox.Consumed
import Outletbox.Orphans
import Outletbox.LocalStorage
import Outletbox.AddressLists
import Outletbox.People
import Outletbox.Migration
import Outletbox.Lifecycle
import Outletbox.Logging
import Outletbox.Purge
import Outletbox.Uploads
import Outletbox.Objects
import Outletbox.Freshness
import Outletbox.SensitiveActions
import Outletbox.Reported
import Outletbox.Expiry
import Outletbox.FileNames
import Outletbox.Refusals
import Outletbox.Upgrades
import Outletbox.Secrets
import Outletbox.Html
import Outletbox.LastFactor
import Outletbox.Base32
import Outletbox.LimitStream
import Outletbox.Credentials
import Outletbox.Changes
import Outletbox.SessionLife
import Outletbox.ServerStatements
import Outletbox.Integrity
import Outletbox.Outsiders
import Outletbox.AuditLog
import Outletbox.Authority
import Outletbox.Forgery
import Outletbox.Validity
import Outletbox.AddressBook
import Outletbox.Faults
