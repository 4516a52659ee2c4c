import Ngircd.Accounting
import Ngircd.Arrays
import Ngircd.AuthPing
import Ngircd.ChannelInfo
import Ngircd.ChannelNames
import Ngircd.ConfigValues
import Ngircd.Ctcp
import Ngircd.Framing
import Ngircd.GlineSync
import Ngircd.HashedSearch
import Ngircd.IoRegistry
import Ngircd.KeyedLists
import Ngircd.Kills
import Ngircd.Leaving
import Ngircd.LineBuffer
import Ngircd.Lookups
import Ngircd.Masks
import Ngircd.Nicknames
import Ngircd.NjoinSync
import Ngircd.OldLinks
import Ngircd.PingTimeout
import Ngircd.Predefined
import Ngircd.Routing
import Ngircd.Secrecy
import Ngircd.Silence
import Ngircd.Splitting
import Ngircd.Targets
import Ngircd.Tokens
import Ngircd.WhowasRing
